import LoopLift.FileSystem.Basic

/-!
# Entries after a change

Where a path leads depends on the kinds of the entries on its way and not on what
files hold. Writing to a file that is there changes the content at one location
and the kind of no entry, so afterwards every path leads where it led before.
-/

namespace LoopLift

namespace Entry

/-- What a path has to know of an entry on its way. -/
inductive Kind where
  | file
  | link (target : Path)
  | directory
  deriving Repr, DecidableEq

/-- The kind of an entry. -/
def kind : Entry → Kind
  | .file _ => .file
  | .link target => .link target
  | .directory _ => .directory

/-- The kind of the entry at a location. -/
def kindAt (root : Entry) (location : Location) : Option Kind :=
  (root.at? location).map kind

theorem kindAt_eq_file_iff {root : Entry} {location : Location} :
    root.kindAt location = some .file ↔ ∃ content, root.at? location = some (.file content) := by
  rw [kindAt]
  cases root.at? location with
  | none => simp
  | some entry => cases entry <;> simp [kind]

@[simp] theorem at?_nil (root : Entry) : root.at? [] = some root := by
  cases root <;> rfl

@[simp] theorem at?_cons (root : Entry) (name : String) (rest : Location) :
    root.at? (name :: rest) = (root.child? name).bind fun below => below.at? rest := by
  cases root <;> rfl

theorem at?_append (root : Entry) (first second : Location) :
    root.at? (first ++ second) = (root.at? first).bind fun entry => entry.at? second := by
  induction first generalizing root with
  | nil => simp
  | cons name rest ih =>
      simp only [List.cons_append, at?_cons, Option.bind_assoc]
      cases root.child? name with
      | none => rfl
      | some below => exact ih below

/-- An entry below a location is in the directory there. -/
theorem at?_concat {root : Entry} {location : Location} {entries : List (String × Entry)}
    (directory : root.at? location = some (.directory entries)) (name : String) :
    root.at? (location ++ [name]) = entries.lookup name := by
  rw [at?_append, directory]
  simp [child?]

theorem lookup_cons_eq (name other : String) (entry : Entry) (rest : List (String × Entry)) :
    ((name, entry) :: rest).lookup other =
      if other = name then some entry else rest.lookup other := by
  rw [List.lookup_cons]
  by_cases same : other = name
  · simp [same]
  · simp [same, beq_eq_false_iff_ne.mpr same]

theorem lookup_assign (name other : String) (new : Entry) (entries : List (String × Entry)) :
    (assign name new entries).lookup other =
      if other = name then some new else entries.lookup other := by
  induction entries with
  | nil => rw [assign, lookup_cons_eq]
  | cons pair rest ih =>
      rcases pair with ⟨first, entry⟩
      rw [assign]
      split
      · rename_i firstSame
        subst firstSame
        simp only [lookup_cons_eq]
        split <;> rfl
      · rename_i firstOther
        simp only [lookup_cons_eq, ih]
        by_cases same : other = first
        · subst same
          simp [firstOther]
        · simp [same]

/-- Exchanging the content of a file changes what stands at its location and
nothing else. -/
theorem at?_put_file {root : Entry} {location : Location} {old : ByteArray}
    (present : root.at? location = some (.file old)) (new : ByteArray) (other : Location) :
    (other = location → (root.put location (.file new)).at? other = some (.file new)) ∧
    (root.put location (.file new)).kindAt other = root.kindAt other ∧
    (other ≠ location → ∀ content,
      (root.put location (.file new)).at? other = some (.file content) ↔
        root.at? other = some (.file content)) := by
  induction location generalizing root other with
  | nil =>
      simp only [at?_nil, Option.some.injEq] at present
      subst present
      cases other with
      | nil => simp [put, kindAt, kind]
      | cons name rest => simp [put, kindAt, child?]
  | cons name rest ih =>
      cases root with
      | file content => simp [child?] at present
      | link target => simp [child?] at present
      | directory entries =>
          simp only [at?_cons, child?, Option.bind_eq_some_iff] at present
          rcases present with ⟨below, found, present⟩
          simp only [put, found, Option.getD_some]
          cases other with
          | nil => simp [kindAt, kind]
          | cons first others =>
              by_cases same : first = name
              · subst same
                have inner := ih present others
                simp only [List.cons.injEq, true_and, kindAt, at?_cons, child?, lookup_assign,
                  ↓reduceIte, Option.bind_some, found, ne_eq]
                exact inner
              · simp [same, kindAt, child?, lookup_assign]

end Entry

end LoopLift
