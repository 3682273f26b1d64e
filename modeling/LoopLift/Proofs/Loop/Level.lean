import LoopLift.Php.Parser
import LoopLift.Proofs.Loop.Fix
import LoopLift.Proofs.Loop.Jump

/-!
# How many loops a jump leaves

A `break` or `continue` says with an integer literal how many loops it leaves. A literal is
written in one of four bases, may have separators between its digits, and may stand in
parentheses. Inspection reads only a literal that stands in the jump itself and takes its
text for decimal digits. A text with other characters counts as one level. So in the loops
that are offered, a jump whose literal has nothing but digits leaves no more loops than it
stands in, while a jump with any other literal may leave the loop that is offered.
-/

namespace LoopLift

open Syntax

/-! ## The value of an integer literal -/

namespace Literal

/-- Value of a digit. A character that is no digit in any base has the value sixteen. -/
def digitValue (char : Char) : Nat :=
  if char.isDigit then char.toNat - '0'.toNat
  else if 'a' ≤ char ∧ char ≤ 'f' then char.toNat - 'a'.toNat + 10
  else if 'A' ≤ char ∧ char ≤ 'F' then char.toNat - 'A'.toNat + 10
  else 16

/-- Value of a row of digits behind digits of the given value. Separators stand between two
digits: `behindDigit` says whether a digit came last. -/
def valueFrom? (base : Nat) : Nat → Bool → List Char → Option Nat
  | value, behindDigit, [] => if behindDigit then some value else none
  | value, behindDigit, char :: rest =>
      if char = '_' then
        if behindDigit then valueFrom? base value false rest else none
      else if digitValue char < base then
        valueFrom? base (value * base + digitValue char) true rest
      else
        none

/-- The base that a letter behind a leading zero stands for. -/
def markedBase? : Char → Option Nat
  | 'x' | 'X' => some 16
  | 'o' | 'O' => some 8
  | 'b' | 'B' => some 2
  | _ => none

/-- The base of a literal, and its digits with their separators. A leading zero without a
letter behind it stands for base eight. -/
def baseAndDigits : List Char → Nat × List Char
  | '0' :: mark :: digits =>
      match markedBase? mark with
      | some base => (base, digits)
      | none => (8, '0' :: mark :: digits)
  | digits => (10, digits)

/-- Numbers from here on are no integers any more. -/
def integerLimit : Nat := Nat.pow 2 63

/-- Value of an integer literal. -/
def value? (text : String) : Option Nat :=
  let (base, digits) := baseAndDigits text.toList
  (valueFrom? base 0 false digits).filter fun value => decide (value < integerLimit)

theorem digitValue_of_isDigit {char : Char} (digit : char.isDigit = true) :
    digitValue char = char.toNat - '0'.toNat := by
  rw [digitValue, if_pos digit]

theorem ne_separator_of_isDigit {char : Char} (digit : char.isDigit = true) : char ≠ '_' := by
  rintro rfl
  exact absurd digit (by decide)

theorem markedBase?_of_isDigit {char : Char} (digit : char.isDigit = true) :
    markedBase? char = none := by
  rw [markedBase?.eq_def]
  split
  case h_7 => rfl
  all_goals exact absurd digit (by decide)

/-- Value of decimal digits. -/
def decimal (digits : List Char) : Nat :=
  digits.foldl (fun value digit => value * 10 + (digit.toNat - '0'.toNat)) 0

/-- Without separators, the value is that of the digits in the base. -/
theorem valueFrom?_eq_foldl {base value result : Nat} {behindDigit : Bool} {digits : List Char}
    (plain : ∀ char ∈ digits, char.isDigit = true)
    (valued : valueFrom? base value behindDigit digits = some result) :
    result = digits.foldl (fun value digit => value * base + (digit.toNat - '0'.toNat)) value := by
  induction digits generalizing value behindDigit with
  | nil =>
      rw [valueFrom?] at valued
      split at valued
      · exact (Option.some.inj valued).symm
      · cases valued
  | cons digit digits ih =>
      rcases List.forall_mem_cons.mp plain with ⟨isDigit, plainRest⟩
      rw [valueFrom?, if_neg (ne_separator_of_isDigit isDigit), digitValue_of_isDigit isDigit]
        at valued
      split at valued
      · rw [List.foldl_cons]
        exact ih plainRest valued
      · cases valued

/-- The same digits have a greater value in a greater base. -/
theorem foldl_le_foldl {small large value more : Nat} (bases : small ≤ large)
    (values : value ≤ more) (digits : List Char) :
    digits.foldl (fun value digit => value * small + (digit.toNat - '0'.toNat)) value ≤
      digits.foldl (fun value digit => value * large + (digit.toNat - '0'.toNat)) more := by
  induction digits generalizing value more with
  | nil => exact values
  | cons digit digits ih =>
      rw [List.foldl_cons, List.foldl_cons]
      apply ih
      have := Nat.mul_le_mul values bases
      omega

/-- Digits alone are read in base ten, or in base eight behind a leading zero. -/
theorem baseAndDigits_of_isDigit {digits : List Char}
    (plain : ∀ char ∈ digits, char.isDigit = true) :
    ∃ base ≤ 10, baseAndDigits digits = (base, digits) := by
  rw [baseAndDigits.eq_def]
  split
  · rename_i mark digits
    rw [markedBase?_of_isDigit (plain mark (by simp))]
    exact ⟨8, by decide, rfl⟩
  · exact ⟨10, by decide, rfl⟩

/-- The value of a literal of digits is at most what its text says in decimal. -/
theorem value?_le_decimal {text : String} {value : Nat} (valued : value? text = some value)
    (plain : ∀ char ∈ text.toList, char.isDigit = true) :
    value ≤ decimal text.toList := by
  rcases baseAndDigits_of_isDigit plain with ⟨base, small, split⟩
  rw [value?, split] at valued
  rw [valueFrom?_eq_foldl plain (Option.filter_eq_some_iff.mp valued).1]
  exact foldl_le_foldl small (Nat.le_refl 0) _

-- A leading zero counts in the value and not in the decimal reading.
example : value? "017" = some 15 ∧ decimal "017".toList = 17 ∧ value? "0x1F" = some 31 ∧
    value? "0b1_0" = some 2 ∧ value? "1__0" = none := by
  decide +kernel

/-- No literal starts with a sign. -/
theorem ne_plus_of_value? {text : String} {value : Nat} (valued : value? text = some value)
    (digits : List Char) : text.toList ≠ '+' :: digits := by
  intro signed
  rw [value?, signed] at valued
  cases valued

theorem ne_nil_of_value? {text : String} {value : Nat} (valued : value? text = some value) :
    text.toList ≠ [] := by
  intro empty
  rw [value?, empty] at valued
  cases valued

end Literal

/-! ## The levels that inspection reads -/

namespace Jump

/-- The literal that says how many loops a jump leaves: an integer among its children, or one
in the parentheses that it holds. -/
inductive LevelLiteral : Node → Node → Prop where
  | direct {node literal : Node}
      (first : (node.namedChildren.find? fun child => child.kind == "integer") = some literal) :
      LevelLiteral node literal
  | parenthesised {node inner literal : Node}
      (bare : (node.namedChildren.find? fun child => child.kind == "integer") = none)
      (member : inner ∈ node.namedChildren) (parentheses : inner.kind = "parenthesized_expression")
      (within : LevelLiteral inner literal) : LevelLiteral node literal

/-- Inspection reads the literal of a jump: it stands in the jump itself, has no characters
but digits, and what these say in decimal is not too large. -/
structure ReadPlainly (source : String) (jump literal : Node) : Prop where
  direct : (jump.namedChildren.find? fun child => child.kind == "integer") = some literal
  digits : ∀ char ∈ (literal.text source).toList, char.isDigit = true
  small : Literal.decimal (literal.text source).toList < levelLimit

/-- A text without sign is read as a row of decimal digits. -/
theorem levelOfText?_of_unsigned {text : String}
    (unsigned : ∀ digits, text.toList ≠ '+' :: digits) :
    levelOfText? text =
      (digitsValue? text.toList).filter fun level => decide (level < levelLimit) := by
  simp only [levelOfText?]

/-- The level of a literal is its decimal reading, if it has one that is not too large. -/
theorem levelOfText?_eq_some_iff {text : String} {value level : Nat}
    (valued : Literal.value? text = some value) :
    levelOfText? text = some level ↔
      (∀ char ∈ text.toList, char.isDigit = true) ∧
        Literal.decimal text.toList < levelLimit ∧ level = Literal.decimal text.toList := by
  have nonempty : text.toList.isEmpty = false := by
    rw [List.isEmpty_eq_false_iff]
    exact Literal.ne_nil_of_value? valued
  rw [levelOfText?_of_unsigned (Literal.ne_plus_of_value? valued), digitsValue?, nonempty,
    Bool.false_or, Option.filter_eq_some_iff, decide_eq_true_iff, ← Literal.decimal,
    ← List.all_eq_true]
  cases text.toList.all Char.isDigit with
  | true =>
      rw [Bool.not_true, if_neg Bool.false_ne_true, Option.some.injEq]
      constructor
      · intro ⟨same, small⟩
        exact ⟨rfl, same ▸ small, same.symm⟩
      · intro ⟨_, small, same⟩
        exact ⟨same.symm, same ▸ small⟩
  | false => simp

theorem levels_of_readPlainly {source : String} {jump literal : Node} {value : Nat}
    (valued : Literal.value? (literal.text source) = some value)
    (plainly : ReadPlainly source jump literal) :
    levels source jump = Literal.decimal (literal.text source).toList := by
  have level := (levelOfText?_eq_some_iff valued).mpr ⟨plainly.digits, plainly.small, rfl⟩
  rw [levels, plainly.direct, Option.bind_some, level, Option.getD_some]

/-- Any other literal counts as one level. -/
theorem levels_of_not_readPlainly {source : String} {jump literal : Node} {value : Nat}
    (written : LevelLiteral jump literal)
    (valued : Literal.value? (literal.text source) = some value)
    (misread : ¬ReadPlainly source jump literal) : levels source jump = 1 := by
  rw [levels]
  cases written with
  | direct first =>
      rw [first, Option.bind_some]
      cases read : levelOfText? (literal.text source) with
      | none => rfl
      | some level =>
          rcases (levelOfText?_eq_some_iff valued).mp read with ⟨digits, small, -⟩
          exact absurd ⟨first, digits, small⟩ misread
  | parenthesised bare => rw [bare, Option.bind_none, Option.getD_none]

/-- Where no jump is found to leave a subtree, every jump outside of functions is read to
leave no more loops than were entered on the way to it. -/
theorem levels_le_of_escapes_eq_false {source : String} {depth : Nat} {node jump : Node}
    {above : List Node} (way : node.Leads above jump)
    (outside : ∀ outer ∈ above, outer.kind ∉ scopeKinds) (isJump : jump.kind ∈ levelKinds)
    (kept : escapes source depth false node = false) :
    levels source jump ≤ depth + loopsAmong above := by
  -- Down the way, the loops that are passed move from the sum's right side to the depth.
  induction way generalizing depth with
  | here node =>
      rw [escapes_eq, Bool.or_eq_false_iff] at kept
      have stays : leaves source depth node = false := by simpa using kept.1
      rw [Bool.eq_false_iff, Ne, leaves_iff] at stays
      exact Nat.not_lt.mp fun leaving => stays (.inr ⟨isJump, leaving⟩)
  | @down node child target above member way ih =>
      rcases List.forall_mem_cons.mp outside with ⟨unscoped, outsideBelow⟩
      rw [escapes_eq, Bool.or_eq_false_iff, List.any_eq_false] at kept
      have keptBelow := kept.2 child member
      rw [List.contains_eq_mem, decide_eq_false unscoped, Bool.or_false, Bool.not_eq_true]
        at keptBelow
      rw [← depthBelow_add]
      exact ih outsideBelow isJump keptBelow

/-- What is known of a jump whose literal has a value, in the body of a loop that is offered:
a literal that inspection reads is bounded by the loops around the jump, and any other counts
as one level, so that there is only known to be a loop around it. -/
structure Bounded (source : String) (above : List Node) (jump literal : Node) (value : Nat) :
    Prop where
  plain : ReadPlainly source jump literal → value ≤ loopsAmong above
  misread : ¬ReadPlainly source jump literal →
    levels source jump = 1 ∧ 1 ≤ loopsAmong above

/-- In the body of a loop that is offered, a jump outside of functions leaves at most the loops
around it in the body, whenever inspection reads its literal. This is so for the literals that
stand in the jump itself and have nothing but digits, unless these are too many. -/
theorem offered_loop_bounds_plain_levels (source : String) (loop : Node)
    (offered : Inspection.isOffered source loop = true) :
    ∃ shape, LoopShape.ofNode? source loop = some shape ∧
      ∀ body ∈ shape.bodyNodes, ∀ above jump, body.Leads above jump →
        (∀ outer ∈ above, outer.kind ∉ scopeKinds) → jump.kind ∈ levelKinds →
        ∀ literal value, LevelLiteral jump literal →
          Literal.value? (literal.text source) = some value →
          Bounded source above jump literal value := by
  rcases Inspection.isOffered_iff.mp offered with ⟨shape, shaped, -, kept⟩
  refine ⟨shape, shaped, ?_⟩
  intro body member above jump way outside isJump literal value written valued
  have bound := levels_le_of_escapes_eq_false way outside isJump (kept body member)
  rw [Nat.zero_add] at bound
  constructor
  · intro plainly
    rw [levels_of_readPlainly valued plainly] at bound
    exact Nat.le_trans (Literal.value?_le_decimal valued plainly.digits) bound
  · intro misread
    have one := levels_of_not_readPlainly written valued misread
    exact ⟨one, one ▸ bound⟩

/-- A loop has a jump among its children, with a literal of the given text. -/
def HoldsJump (source : String) (outer : Node) (spelling : String) : Prop :=
  outer.kind ∈ loopKinds ∧ ∃ jump ∈ outer.children, jump.kind ∈ levelKinds ∧
    ∃ literal ∈ (jump.namedChildren.find? fun child => child.kind == "integer").toList,
      literal.text source = spelling

instance (source : String) (outer : Node) (spelling : String) :
    Decidable (HoldsJump source outer spelling) :=
  inferInstanceAs (Decidable (_ ∧ _))

theorem not_mem_scopeKinds_of_mem_loopKinds {kind : String} (isLoop : kind ∈ loopKinds) :
    kind ∉ scopeKinds := by
  have apart : ∀ kind ∈ loopKinds, kind ∉ scopeKinds := by decide
  exact apart kind isLoop

/-- A loop with a jump out of two inner loops. -/
def twoLevels : String := "<?php foreach([]as$b)for(;;)while(1)break 2;"

set_option maxRecDepth 100000 in
theorem holdsJump_twoLevels :
    ∃ loop ∈ (Php.parse twoLevels).loops, Inspection.isOffered twoLevels loop = true ∧
      ∃ shape ∈ (LoopShape.ofNode? twoLevels loop).toList, ∃ body ∈ shape.bodyNodes,
        body.kind ∈ loopKinds ∧ ∃ inner ∈ body.children, HoldsJump twoLevels inner "2" := by
  decide +kernel

theorem offered_loop_bounds_plain_levels_twoLevels :
    ∃ loop ∈ (Php.parse twoLevels).loops, Inspection.isOffered twoLevels loop = true ∧
      ∃ shape ∈ LoopShape.ofNode? twoLevels loop, ∃ body ∈ shape.bodyNodes,
        ∃ above jump literal, body.Leads above jump ∧ LevelLiteral jump literal ∧
          Literal.value? (literal.text twoLevels) = some 2 ∧
          ReadPlainly twoLevels jump literal ∧ 2 ≤ loopsAmong above := by
  rcases holdsJump_twoLevels with
    ⟨loop, inTree, offered, shape, shaped, body, inBody, isLoop, inner, inBlock, innerLoop, jump,
      inInner, isJump, literal, found, spelled⟩
  rw [Option.mem_toList] at shaped found
  have outside : ∀ outer ∈ [body, inner], outer.kind ∉ scopeKinds := by
    simpa using ⟨not_mem_scopeKinds_of_mem_loopKinds isLoop,
      not_mem_scopeKinds_of_mem_loopKinds innerLoop⟩
  have way : body.Leads [body, inner] jump := .down inBlock (.down inInner (.here jump))
  have plainly : ReadPlainly twoLevels jump literal := by
    have read : "2".toList.all Char.isDigit = true ∧
        Literal.decimal "2".toList < levelLimit := by
      decide +kernel
    rw [← spelled] at read
    exact ⟨found, List.all_eq_true.mp read.1, read.2⟩
  have valued : Literal.value? (literal.text twoLevels) = some 2 := by
    rw [spelled]
    decide +kernel
  rcases offered_loop_bounds_plain_levels twoLevels loop offered with ⟨same, sameShaped, bounded⟩
  cases (Option.mem_def.mp shaped).symm.trans sameShaped
  exact ⟨loop, inTree, offered, shape, shaped, body, inBody, [body, inner], jump, literal, way,
    .direct found, valued, plainly,
    (bounded body inBody _ jump way outside isJump literal 2 (.direct found) valued).plain
      plainly⟩

/-- A loop with a jump inside one inner loop, whose level is written in hexadecimal. -/
def hexadecimalLevel : String := "<?php foreach([]as$b)while(1)break 0x2;"

set_option maxRecDepth 100000 in
theorem holdsJump_hexadecimalLevel :
    ∃ loop ∈ (Php.parse hexadecimalLevel).loops,
      Inspection.isOffered hexadecimalLevel loop = true ∧
      ∃ shape ∈ (LoopShape.ofNode? hexadecimalLevel loop).toList,
        ∃ body ∈ shape.bodyNodes, HoldsJump hexadecimalLevel body "0x2" := by
  decide +kernel

/-- A loop is offered although a jump leaves it: a level of two counts as one when it is
written in another base. -/
theorem misread_level_leaves_offered_loop :
    ∃ loop ∈ (Php.parse hexadecimalLevel).loops,
      Inspection.isOffered hexadecimalLevel loop = true ∧
      ∃ shape ∈ LoopShape.ofNode? hexadecimalLevel loop, ∃ body ∈ shape.bodyNodes,
        ∃ above jump literal, body.Leads above jump ∧
          (∀ outer ∈ above, outer.kind ∉ scopeKinds) ∧ jump.kind ∈ levelKinds ∧
          LevelLiteral jump literal ∧
          Literal.value? (literal.text hexadecimalLevel) = some 2 ∧ loopsAmong above < 2 := by
  rcases holdsJump_hexadecimalLevel with
    ⟨loop, inTree, offered, shape, shaped, body, inBody, isLoop, jump, inJump, isJump, literal,
      found, spelled⟩
  rw [Option.mem_toList] at shaped found
  have alone : loopsAmong [body] ≤ 1 := List.countP_le_length
  refine ⟨loop, inTree, offered, shape, shaped, body, inBody, [body], jump, literal,
    .down inJump (.here jump), ?_, isJump, .direct found, ?_, Nat.lt_succ_of_le alone⟩
  · simpa using not_mem_scopeKinds_of_mem_loopKinds isLoop
  · rw [spelled]
    decide +kernel

end Jump

end LoopLift
