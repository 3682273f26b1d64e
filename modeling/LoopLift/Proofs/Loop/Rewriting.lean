import LoopLift.Proofs.Loop.Fix
import LoopLift.Proofs.Loop.Replacement

/-!
# Which loops are rewritten, and to what

A loop is read in several steps, each of which can decline it: its parts are cut off at the
end keyword, the binding is split, and the body is classified. Here the loops that pass all
of them are described by their children alone. The replacement of such a loop is a fixed
frame around texts of the source, in which the statements of the body stand one after the
other.
-/

namespace LoopLift

open Syntax

namespace LoopShape

/-- What a loop binds: a value alone, or a pair of a key and a value. All of them are plain
variables. -/
inductive Binds : Node → Option Node → Node → Prop where
  | value {binding : Node} (plain : binding.kind = variableKind) : Binds binding none binding
  | pair {binding key value : Node} {others : List Node} (isPair : binding.kind = "pair")
      (sides : binding.namedChildren = key :: value :: others)
      (plainKey : key.kind = variableKind) (plainValue : value.kind = variableKind) :
      Binds binding (some key) value

/-- The parts of a loop: the named children before the first end keyword that are neither
comments nor tags. The first one is iterated, the second one is the binding, and the rest is
the body. -/
structure Consists (loop iterable : Node) (key : Option Node) (value : Node)
    (rest : List Node) : Prop where
  isLoop : loop.kind = "foreach_statement"
  sound : ∀ child ∈ loop.children, child.error = false
  parts : ∃ before behind binding, loop.children = before ++ behind ∧
    (∀ child ∈ before, endsLoop child = false) ∧
    (∀ child ∈ behind.head?, endsLoop child = true) ∧
    (before.filter fun child => child.named && !child.isTrivia) = iterable :: binding :: rest ∧
    Binds binding key value

/-- The loop has its body between `:` and the end keyword. -/
def IsAlternative (loop : Node) : Prop :=
  ∃ child ∈ loop.children, child.kind = ":"

/-- A body that can be moved into a closure: it does not leave the program text, neither
between its nodes nor directly inside a block, and it is written with `:` or is one node
other than the empty statement. -/
structure Supported (loop : Node) (rest : List Node) : Prop where
  between : ∀ node ∈ rest, node.kind ≠ "text_interpolation"
  inside : ∀ node ∈ rest, node.kind ∈ blockKinds →
    ∀ child ∈ node.children, child.kind ≠ "text_interpolation"
  form : IsAlternative loop ∨ ∃ node, rest = [node] ∧ node.kind ≠ "empty_statement"

/-- The statements that a loop hands over from its body: all nodes of it with `:`, else
those in its block, or its single statement. -/
inductive HandsOver (loop : Node) : List Node → List Node → Prop where
  | alternative {rest : List Node} (colon : IsAlternative loop) : HandsOver loop rest rest
  | block {node : Node} (braced : ¬IsAlternative loop) (isBlock : node.kind ∈ blockKinds) :
      HandsOver loop [node] node.namedChildren
  | single {node : Node} (braced : ¬IsAlternative loop) (plain : node.kind ∉ blockKinds) :
      HandsOver loop [node] [node]

/-- The clause for captured names, nothing when there are none. -/
def useText : List String → String
  | [] => ""
  | captured => "use (" ++ ", ".intercalate (captured.map ("$" ++ ·)) ++ ")"

/-- The closure with the value and the key for its parameters, and the statements in its
body, a line per statement. -/
def closureText (source : String) (key : Option Node) (value : Node) (captured : List String)
    (statements : List Node) : String :=
  "function(" ++ (value.text source ++ key.elim "" fun key => ", " ++ key.text source) ++ ") " ++
    useText captured ++ " \x7b" ++ "\n".intercalate (statements.map (Node.text source)) ++ "\x7d"

/-- The call that is put together from the parts of a loop and the statements of its body. -/
def assembled (source : String) (iterable : Node) (key : Option Node) (value : Node)
    (captured : List String) (statements : List Node) : String :=
  "collect(" ++ iterable.text source ++ ")->each(" ++
    closureText source key value captured statements ++ ");"

/-! ## The parts of a loop -/

theorem binding?_eq_some_iff {binding value : Node} {key : Option Node} :
    binding? binding = some (key, value) ↔ Binds binding key value := by
  constructor
  · intro bound
    rw [binding?] at bound
    split at bound
    · rename_i plain
      cases bound
      exact .value (beq_iff_eq.mp plain)
    · split at bound
      · rename_i isPair
        split at bound
        · rename_i first second others sides
          split at bound
          · rename_i plain
            cases bound
            rw [Bool.and_eq_true, beq_iff_eq, beq_iff_eq] at plain
            exact .pair (beq_iff_eq.mp isPair) sides plain.1 plain.2
          · cases bound
        · cases bound
      · cases bound
  · intro binds
    cases binds with
    | value plain => rw [binding?, if_pos (beq_iff_eq.mpr plain)]
    | pair isPair sides plainKey plainValue =>
        have notPlain : ¬(binding.kind == variableKind) = true := by
          rw [isPair]
          decide
        rw [binding?, if_neg notPlain, if_pos (beq_iff_eq.mpr isPair), sides]
        simp only [plainKey, plainValue, beq_self_eq_true, Bool.and_self, ↓reduceIte]

/-- The parts are what is named before a cut at the first end keyword. -/
theorem parts_eq_iff {loop : Node} {named : List Node} :
    parts loop = named ↔
      ∃ before behind, loop.children = before ++ behind ∧
        (∀ child ∈ before, endsLoop child = false) ∧
        (∀ child ∈ behind.head?, endsLoop child = true) ∧
        (before.filter fun child => child.named && !child.isTrivia) = named := by
  constructor
  · intro partsEq
    refine ⟨_, _, List.takeWhile_append_dropWhile.symm, ?_, ?_, partsEq⟩
    · intro child member
      have kept := List.all_eq_true.mp List.all_takeWhile child member
      simpa using kept
    · intro child first
      have stopped := List.head?_dropWhile_not (fun child => !endsLoop child) loop.children
      rw [Option.mem_def.mp first] at stopped
      simpa using stopped
  · intro cut
    rcases cut with ⟨before, behind, split, kept, stopped, named⟩
    have stops : (behind.takeWhile fun child => !endsLoop child) = [] := by
      cases behind with
      | nil => rfl
      | cons child behind => simp [stopped child rfl]
    have keeps : ∀ child ∈ before, (!endsLoop child) = true := by
      intro child member
      rw [kept child member]
      rfl
    rw [parts, split, List.takeWhile_append_of_pos keeps, stops, List.append_nil]
    exact named

theorem any_colon_iff {loop : Node} :
    (loop.children.any fun child => child.kind == ":") = true ↔ IsAlternative loop := by
  simp [IsAlternative]

/-- A loop has a shape exactly when it consists of the parts that the shape names. The body
is then that of the rest. -/
theorem ofNode?_eq_some_iff {source : String} {loop : Node} {shape : LoopShape} :
    ofNode? source loop = some shape ↔
      Consists loop shape.iterable shape.key shape.value shape.bodyNodes ∧
        shape.body = classify source (loop.children.any fun child => child.kind == ":")
          shape.bodyNodes := by
  constructor
  · intro shaped
    refine ⟨?_, (of_ofNode? shaped).2⟩
    rw [ofNode?] at shaped
    split at shaped
    · cases shaped
    · rename_i proper
      simp only [Bool.or_eq_true, bne_iff_ne, not_or, not_not, List.any_eq_true, not_exists,
        not_and, Bool.not_eq_true] at proper
      split at shaped
      · rename_i iterable binding rest partsEq
        rcases Option.map_eq_some_iff.mp shaped with ⟨⟨key, value⟩, bound, rfl⟩
        rcases parts_eq_iff.mp partsEq with ⟨before, behind, split, kept, stopped, named⟩
        exact ⟨proper.1, proper.2, before, behind, binding, split, kept, stopped, named,
          binding?_eq_some_iff.mp bound⟩
      · cases shaped
  · intro described
    rcases described with
      ⟨⟨isLoop, sound, before, behind, binding, split, kept, stopped, named, binds⟩, bodyEq⟩
    have partsEq := parts_eq_iff.mpr ⟨before, behind, split, kept, stopped, named⟩
    have proper : ¬(loop.kind != Tree.loopKind || loop.children.any Node.error) = true := by
      simp only [Bool.or_eq_true, bne_iff_ne, not_or, not_not, List.any_eq_true, not_exists,
        not_and, Bool.not_eq_true]
      exact ⟨isLoop, sound⟩
    rw [ofNode?, if_neg proper, partsEq]
    simp only [binding?_eq_some_iff.mpr binds, Option.map_some, ← bodyEq]

/-! ## The body of a loop -/

theorem hasInlineText_eq_false_iff {rest : List Node} :
    hasInlineText rest = false ↔
      (∀ node ∈ rest, node.kind ≠ "text_interpolation") ∧
        ∀ node ∈ rest, node.kind ∈ blockKinds →
          ∀ child ∈ node.children, child.kind ≠ "text_interpolation" := by
  simp only [hasInlineText, inlineTextKind, List.any_eq_false, Bool.or_eq_true,
    Bool.and_eq_true, beq_iff_eq, List.contains_iff_mem, List.any_eq_true, not_or, not_and,
    not_exists]
  exact forall₂_and

theorem bodyOf_ne_unsupported_iff {source : String} {rest : List Node} :
    bodyOf source rest ≠ .unsupported ↔
      ∃ node, rest = [node] ∧ node.kind ≠ "empty_statement" := by
  rcases rest with _ | ⟨node, _ | ⟨next, rest⟩⟩
  · simp [bodyOf]
  · rw [bodyOf]
    by_cases isBlock : node.kind ∈ blockKinds
    · have proper : node.kind ≠ "empty_statement" := by
        intro empty
        rw [empty] at isBlock
        exact absurd isBlock (by decide)
      simp [isBlock, proper]
    · simp [isBlock]
  · simp [bodyOf]

/-- The supported bodies are those that are classified as a block or a single statement. -/
theorem classify_ne_unsupported_iff {source : String} {loop : Node} {rest : List Node} :
    classify source (loop.children.any fun child => child.kind == ":") rest ≠ .unsupported ↔
      Supported loop rest := by
  rw [classify]
  cases inline : hasInlineText rest with
  | true =>
      rw [if_pos rfl]
      constructor
      · intro supported
        exact absurd rfl supported
      · intro supported
        rw [hasInlineText_eq_false_iff.mpr ⟨supported.between, supported.inside⟩] at inline
        cases inline
  | false =>
      rw [if_neg Bool.false_ne_true]
      have proper := hasInlineText_eq_false_iff.mp inline
      split
      · rename_i colon
        exact ⟨fun _ => ⟨proper.1, proper.2, .inl (any_colon_iff.mp colon)⟩,
          fun _ => LoopBody.noConfusion⟩
      · rename_i braced
        rw [bodyOf_ne_unsupported_iff]
        constructor
        · intro single
          exact ⟨proper.1, proper.2, .inr single⟩
        · intro supported
          exact supported.form.resolve_left fun colon => braced (any_colon_iff.mpr colon)

/-- What a body hands over are the statements of the loop. -/
theorem HandsOver.eq_statements {loop : Node} {shape : LoopShape} {handed : List Node}
    (hands : HandsOver loop shape.bodyNodes handed) : handed = shape.statements loop := by
  rw [statements]
  generalize shape.bodyNodes = rest at hands ⊢
  cases hands with
  | alternative colon => rw [if_pos (any_colon_iff.mpr colon)]
  | block braced isBlock =>
      rw [if_neg (mt any_colon_iff.mp braced)]
      exact (if_pos (List.contains_iff_mem.mpr isBlock)).symm
  | single braced plain =>
      rw [if_neg (mt any_colon_iff.mp braced)]
      exact (if_neg (mt List.contains_iff_mem.mp plain)).symm

theorem Supported.exists_handsOver {loop : Node} {rest : List Node}
    (supported : Supported loop rest) : ∃ handed, HandsOver loop rest handed := by
  by_cases colon : IsAlternative loop
  · exact ⟨rest, .alternative colon⟩
  · rcases supported.form.resolve_left colon with ⟨node, rfl, -⟩
    by_cases isBlock : node.kind ∈ blockKinds
    · exact ⟨node.namedChildren, .block colon isBlock⟩
    · exact ⟨[node], .single colon isBlock⟩

/-! ## The text of the replacement -/

theorem useClause?_getD (captured : List String) :
    (Capture.useClause? captured).getD "" = useText captured := by
  cases captured with
  | nil => rfl
  | cons name captured => rfl

theorem arguments_eq (source : String) (shape : LoopShape) :
    shape.arguments source =
      shape.value.text source ++ shape.key.elim "" fun key => ", " ++ key.text source := by
  rw [arguments]
  cases shape.key with
  | none => exact (String.append_empty).symm
  | some key => exact String.append_assoc

theorem assembled_eq (source : String) (loop : Node) (shape : LoopShape) :
    assembled source shape.iterable shape.key shape.value (shape.captures source)
        (shape.statements loop) =
      shape.opening source ++
        "\n".intercalate ((shape.statements loop).map (Node.text source)) ++ "\x7d);" := by
  have called : ")->each(function(" = ")->each(" ++ "function(" := rfl
  have closed : "\x7d);" = "\x7d" ++ ");" := rfl
  rw [assembled, closureText, opening, useClause?_getD, arguments_eq, called, closed]
  simp only [String.append_assoc]

end LoopShape

open LoopShape

/-- A loop has a replacement exactly when it consists of sound parts and has a supported
body. -/
theorem exists_replacementText?_iff_supported {source : String} {loop : Node} :
    (∃ text, replacementText? source loop = some text) ↔
      ∃ iterable key value rest, Consists loop iterable key value rest ∧ Supported loop rest := by
  rw [exists_replacementText?_iff]
  constructor
  · intro described
    rcases described with ⟨shape, shaped, supported⟩
    rcases ofNode?_eq_some_iff.mp shaped with ⟨consists, bodyEq⟩
    rw [bodyEq] at supported
    exact ⟨_, _, _, _, consists, classify_ne_unsupported_iff.mp supported⟩
  · intro described
    rcases described with ⟨iterable, key, value, rest, consists, supported⟩
    exact ⟨⟨iterable, key, value, rest, _⟩, ofNode?_eq_some_iff.mpr ⟨consists, rfl⟩,
      classify_ne_unsupported_iff.mpr supported⟩

/-- The replacement of a loop is put together from its parts and the statements that its body
hands over. -/
theorem replacementText?_of_consists {source : String} {loop iterable value : Node}
    {key : Option Node} {rest handed : List Node} (consists : Consists loop iterable key value rest)
    (supported : Supported loop rest) (hands : HandsOver loop rest handed) :
    replacementText? source loop = some (assembled source iterable key value
      (Capture.collect source ((key.toList ++ [value]).map (bareName source) ++ ["this"]) rest)
      handed) := by
  let shape : LoopShape := ⟨iterable, key, value, rest,
    classify source (loop.children.any fun child => child.kind == ":") rest⟩
  have shaped : ofNode? source loop = some shape := ofNode?_eq_some_iff.mpr ⟨consists, rfl⟩
  have handedEq : handed = shape.statements loop := HandsOver.eq_statements hands
  rcases exists_replacementText?_iff_supported.mpr ⟨iterable, key, value, rest, consists, supported⟩
    with ⟨text, replaced⟩
  rw [replaced, replacementText?_eq shaped replaced, ← assembled_eq source loop shape, handedEq]
  rfl

/-- A node has a replacement exactly when it is a loop that consists of sound parts and has a
supported body. The replacement is then the call put together from these parts: between its
braces stand the statements that the body hands over, each of them once, as it is in the
source, and in the order of the source. -/
theorem replacement_is_assembled (source : String) (loop : Node) :
    ((∃ text, replacementText? source loop = some text) ↔
      ∃ iterable key value rest, Consists loop iterable key value rest ∧ Supported loop rest) ∧
    ∀ text, replacementText? source loop = some text ↔
      ∃ iterable key value rest handed,
        Consists loop iterable key value rest ∧ Supported loop rest ∧
        HandsOver loop rest handed ∧
        text = assembled source iterable key value
          (Capture.collect source
            ((key.toList ++ [value]).map (bareName source) ++ ["this"]) rest) handed := by
  refine ⟨exists_replacementText?_iff_supported, ?_⟩
  intro text
  constructor
  · intro replaced
    rcases exists_replacementText?_iff_supported.mp ⟨text, replaced⟩ with
      ⟨iterable, key, value, rest, consists, supported⟩
    rcases supported.exists_handsOver with ⟨handed, hands⟩
    rw [replacementText?_of_consists consists supported hands] at replaced
    exact ⟨iterable, key, value, rest, handed, consists, supported, hands,
      (Option.some.inj replaced).symm⟩
  · intro described
    rcases described with ⟨iterable, key, value, rest, handed, consists, supported, hands, rfl⟩
    exact replacementText?_of_consists consists supported hands

end LoopLift
