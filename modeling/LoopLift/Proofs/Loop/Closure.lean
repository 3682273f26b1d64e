import LoopLift.Php.Parser
import LoopLift.Proofs.Loop.Capture
import LoopLift.Proofs.Loop.Rewriting

/-!
# The head of the closure

The replacement of a loop moves the body into a closure, whose head names parameters and
captured variables. A program with such a head is compiled only if no parameter stands there
twice, no captured name stands there twice or is that of a parameter, and neither the receiver
nor a variable that is global everywhere is captured. The replacement keeps these rules but
for two: a loop with one variable for its key and its value gives two parameters of one name,
and a global variable that the body reads is captured like any other.
-/

namespace LoopLift

open Syntax

/-- The names in the head of a closure. -/
structure ClosureHead where
  parameters : List String
  captured : List String
  deriving Repr, DecidableEq

namespace ClosureHead

/-- Names of the variables that are global everywhere. -/
def autoGlobals : List String :=
  ["GLOBALS", "_SERVER", "_GET", "_POST", "_FILES", "_COOKIE", "_SESSION", "_REQUEST", "_ENV"]

/-- The rules for the head of a closure. -/
structure Legal (head : ClosureHead) : Prop where
  parameters : head.parameters.Nodup
  captured : head.captured.Nodup
  apart : ∀ name ∈ head.captured, name ∉ head.parameters
  receiver : "this" ∉ head.captured
  globals : ∀ name ∈ head.captured, name ∉ autoGlobals

/-- The text of the head. -/
def text (head : ClosureHead) : String :=
  "function(" ++ ", ".intercalate (head.parameters.map ("$" ++ ·)) ++ ") " ++
    (Capture.useClause? head.captured).getD ""

end ClosureHead

namespace LoopShape

/-- Every plain variable of a loop is written as a sigil and its name, which starts with no
sigil itself. -/
def Spelled (source : String) (loop : Node) : Prop :=
  ∀ node ∈ loop.preorder, node.kind = variableKind →
    ∃ name ∈ (node.childOfKind? "name").toList,
      node.text source = "$" ++ name.text source ∧ (name.text source).toList.head? ≠ some '$'

instance (source : String) (loop : Node) : Decidable (Spelled source loop) :=
  inferInstanceAs (Decidable (∀ _ ∈ _, _))

/-- The head of the closure for a loop: the value and the key are its parameters. -/
def head (source : String) (shape : LoopShape) : ClosureHead where
  parameters := (shape.value :: shape.key.toList).map (bareName source)
  captured := shape.captures source

variable {source : String} {loop : Node} {shape : LoopShape}

/-- What a binding binds are plain variables in it. -/
theorem Binds.mem_preorder {binding value bound : Node} {key : Option Node}
    (binds : Binds binding key value) (member : bound ∈ value :: key.toList) :
    bound ∈ binding.preorder ∧ bound.kind = variableKind := by
  cases binds with
  | value plain =>
      rw [List.mem_singleton.mp member]
      exact ⟨Node.mem_preorder_self _, plain⟩
  | pair isPair sides plainKey plainValue =>
      have ofSide : ∀ side ∈ binding.namedChildren, side ∈ binding.preorder := by
        intro side inSides
        exact Node.mem_preorder_of_child (List.mem_filter.mp inSides).1
          (Node.mem_preorder_self side)
      rw [sides] at ofSide
      rcases List.mem_cons.mp member with rfl | isKey
      · exact ⟨ofSide _ (by simp), plainValue⟩
      · rw [List.mem_singleton.mp isKey]
        exact ⟨ofSide _ (by simp), plainKey⟩

/-- The variables that a loop binds are plain variables of the loop. -/
theorem mem_preorder_of_bound (shaped : ofNode? source loop = some shape) {bound : Node}
    (member : bound ∈ shape.value :: shape.key.toList) :
    bound ∈ loop.preorder ∧ bound.kind = variableKind := by
  rcases (ofNode?_eq_some_iff.mp shaped).1.parts with
    ⟨before, behind, binding, split, -, -, named, binds⟩
  have kept : binding ∈ before.filter fun child => child.named && !child.isTrivia := by
    simp [named]
  have inLoop : binding ∈ loop.children := by
    rw [split]
    exact List.mem_append_left _ (List.mem_filter.mp kept).1
  rcases binds.mem_preorder member with ⟨inside, plain⟩
  exact ⟨Node.mem_preorder_of_child inLoop inside, plain⟩

/-- A plain variable is written as a sigil and its bare name. -/
theorem text_eq_bareName (spelled : Spelled source loop) {node : Node}
    (inside : node ∈ loop.preorder) (plain : node.kind = variableKind) :
    node.text source = "$" ++ bareName source node := by
  rcases spelled node inside plain with ⟨name, found, written, bare⟩
  rw [Option.mem_toList] at found
  have nameEq : bareName source node = name.text source := by
    have kept : (name.text source).toList.dropWhile (· == '$') = (name.text source).toList := by
      cases letters : (name.text source).toList with
      | nil => rfl
      | cons first letters =>
          rw [letters] at bare
          exact List.dropWhile_cons_of_neg (by simpa using bare)
    simp only [bareName, found, Option.getD_some, kept, String.ofList_toList]
  rw [written, nameEq]

/-- In front of the statements of the replacement stand the iterated expression and the head
of the closure. -/
theorem opening_eq (spelled : Spelled source loop) (shaped : ofNode? source loop = some shape) :
    shape.opening source =
      "collect(" ++ shape.iterable.text source ++ ")->each(" ++ (shape.head source).text ++
        " \x7b" := by
  have named : (shape.value :: shape.key.toList).map (Node.text source) =
      (shape.head source).parameters.map ("$" ++ ·) := by
    rw [head, List.map_map]
    apply List.map_congr_left
    intro bound member
    rcases mem_preorder_of_bound shaped member with ⟨inside, plain⟩
    exact text_eq_bareName spelled inside plain
  have arguments : shape.arguments source =
      ", ".intercalate ((shape.value :: shape.key.toList).map (Node.text source)) := by
    rw [LoopShape.arguments]
    cases shape.key with
    | none => rfl
    | some key => rfl
  have called : ")->each(function(" = ")->each(" ++ "function(" := rfl
  rw [opening, arguments, named, called, ClosureHead.text]
  simp only [String.append_assoc]
  rfl

/-- Captured are the names read in the body that are not blank, no parameters and not the
receiver. -/
theorem mem_captured_iff {name : String} :
    name ∈ (shape.head source).captured ↔
      Capture.Reads source shape.bodyNodes name ∧ Text.isBlank name.toList = false ∧
        name ∉ (shape.head source).parameters ∧ name ≠ "this" := by
  have ignored : name ∈ shape.ignoredNames source ↔
      name ∈ (shape.head source).parameters ∨ name = "this" := by
    simp [ignoredNames, head, receiverName, or_comm, or_assoc]
  have collected : name ∈ (shape.head source).captured ↔
      Capture.Reads source shape.bodyNodes name ∧ Text.isBlank name.toList = false ∧
        name ∉ shape.ignoredNames source :=
    Capture.mem_collect_iff
  rw [collected, ignored, not_or]

/-- The parameters are distinct when the key is not named like the value. -/
theorem nodup_parameters_iff :
    (shape.head source).parameters.Nodup ↔
      ∀ key ∈ shape.key, bareName source key ≠ bareName source shape.value := by
  rw [head]
  cases shape.key with
  | none => simp
  | some key => simp [eq_comm]

/-- A global variable is captured when the body reads it, unless it is a parameter. -/
theorem autoGlobal_mem_captured_iff {name : String} (isGlobal : name ∈ ClosureHead.autoGlobals) :
    name ∈ (shape.head source).captured ↔
      Capture.Reads source shape.bodyNodes name ∧ name ∉ (shape.head source).parameters := by
  have proper : ∀ name ∈ ClosureHead.autoGlobals,
      Text.isBlank name.toList = false ∧ name ≠ "this" := by
    decide +kernel
  rcases proper name isGlobal with ⟨visible, notReceiver⟩
  rw [mem_captured_iff]
  simp [visible, notReceiver]

/-- The names of a loop fit into the head of a closure: the key is not named like the value,
and the body reads no global variable besides these two. -/
structure NamesFit (source : String) (shape : LoopShape) : Prop where
  distinct : ∀ key ∈ shape.key, bareName source key ≠ bareName source shape.value
  globals : ∀ name ∈ ClosureHead.autoGlobals, Capture.Reads source shape.bodyNodes name →
    name ∈ (shape.head source).parameters

theorem head_legal_iff : (shape.head source).Legal ↔ shape.NamesFit source := by
  constructor
  · intro legal
    refine ⟨nodup_parameters_iff.mp legal.parameters, ?_⟩
    intro name isGlobal reads
    by_contra missing
    exact legal.globals name ((autoGlobal_mem_captured_iff isGlobal).mpr ⟨reads, missing⟩) isGlobal
  · intro fit
    refine ⟨nodup_parameters_iff.mpr fit.distinct, Capture.nodup_collect _ _ _, ?_, ?_, ?_⟩
    · intro name member
      exact (mem_captured_iff.mp member).2.2.1
    · intro member
      exact (mem_captured_iff.mp member).2.2.2 rfl
    · intro name member isGlobal
      rcases (autoGlobal_mem_captured_iff isGlobal).mp member with ⟨reads, missing⟩
      exact missing (fit.globals name isGlobal reads)

/-- The head of the closure that replaces a loop captures no name twice, no parameter and not
the receiver. It keeps all rules for heads exactly when the names of the loop fit: its key and
its value have different names, and its body reads no global variable besides them. -/
theorem replacement_head_legal_iff (source : String) (loop : Node) (text : String)
    (spelled : Spelled source loop) (replaced : replacementText? source loop = some text) :
    ∃ shape, ofNode? source loop = some shape ∧
      (∃ body, text = "collect(" ++ shape.iterable.text source ++ ")->each(" ++
        (shape.head source).text ++ " \x7b" ++ body ++ "\x7d);") ∧
      (shape.head source).captured.Nodup ∧
      (∀ name ∈ (shape.head source).captured,
        name ∉ (shape.head source).parameters ∧ name ≠ "this") ∧
      ((shape.head source).Legal ↔ shape.NamesFit source) := by
  rcases exists_replacementText?_iff.mp ⟨text, replaced⟩ with ⟨shape, shaped, -⟩
  refine ⟨shape, shaped, ?_, Capture.nodup_collect _ _ _, ?_, head_legal_iff⟩
  · rw [replacementText?_eq shaped replaced, opening_eq spelled shaped]
    exact ⟨_, rfl⟩
  · intro name member
    exact (mem_captured_iff.mp member).2.2

/-- A loop with a key, a value and a captured variable. -/
def keyedLoop : String := "<?php foreach([]as$k=>$v)f($v,$x);"

/-- What replaces it. -/
def keyedCall : String := "collect([])->each(function($v, $k) use ($x) \x7bf($v,$x);\x7d);"

/-- A loop that reads a global variable. -/
def globalLoop : String := "<?php foreach([]as$b)f($_GET);"

/-- A loop with one variable for its key and its value. -/
def repeatedLoop : String := "<?php foreach([]as$b=>$b)f();"

set_option maxRecDepth 100000 in
theorem head_keyedLoop :
    ∃ loop ∈ (Php.parse keyedLoop).loops, Spelled keyedLoop loop ∧
      replacementText? keyedLoop loop = some keyedCall ∧
      ∃ shape ∈ (ofNode? keyedLoop loop).toList, shape.head keyedLoop = ⟨["v", "k"], ["x"]⟩ := by
  decide +kernel

theorem replacement_head_legal_iff_keyedLoop :
    ∃ loop ∈ (Php.parse keyedLoop).loops, Spelled keyedLoop loop ∧
      replacementText? keyedLoop loop = some keyedCall ∧
      ∃ shape, ofNode? keyedLoop loop = some shape ∧
        shape.head keyedLoop = ⟨["v", "k"], ["x"]⟩ ∧ shape.NamesFit keyedLoop := by
  rcases head_keyedLoop with ⟨loop, inTree, spelled, replaced, shape, shaped, headEq⟩
  rw [Option.mem_toList] at shaped
  rcases replacement_head_legal_iff keyedLoop loop keyedCall spelled replaced with
    ⟨same, sameShaped, -, -, -, legalIff⟩
  cases (Option.mem_def.mp shaped).symm.trans sameShaped
  refine ⟨loop, inTree, spelled, replaced, shape, shaped, headEq, legalIff.mp ?_⟩
  rw [headEq]
  exact ⟨by decide, by decide, by decide, by decide, by decide⟩

set_option maxRecDepth 100000 in
theorem head_globalLoop_repeatedLoop :
    (∃ loop ∈ (Php.parse globalLoop).loops, Spelled globalLoop loop ∧
      replacementText? globalLoop loop =
        some "collect([])->each(function($b) use ($_GET) \x7bf($_GET);\x7d);" ∧
      ∃ shape ∈ (ofNode? globalLoop loop).toList, shape.head globalLoop = ⟨["b"], ["_GET"]⟩) ∧
    ∃ loop ∈ (Php.parse repeatedLoop).loops, Spelled repeatedLoop loop ∧
      replacementText? repeatedLoop loop =
        some "collect([])->each(function($b, $b)  \x7bf();\x7d);" ∧
      ∃ shape ∈ (ofNode? repeatedLoop loop).toList,
        shape.head repeatedLoop = ⟨["b", "b"], []⟩ := by
  decide +kernel

/-- Loops are rewritten to closures with illegal heads: one that captures a global variable,
and one with two parameters of one name. -/
theorem replacement_head_not_legal :
    (∃ loop ∈ (Php.parse globalLoop).loops, Spelled globalLoop loop ∧
      replacementText? globalLoop loop =
        some "collect([])->each(function($b) use ($_GET) \x7bf($_GET);\x7d);" ∧
      ∃ shape, ofNode? globalLoop loop = some shape ∧ ¬(shape.head globalLoop).Legal) ∧
    ∃ loop ∈ (Php.parse repeatedLoop).loops, Spelled repeatedLoop loop ∧
      replacementText? repeatedLoop loop =
        some "collect([])->each(function($b, $b)  \x7bf();\x7d);" ∧
      ∃ shape, ofNode? repeatedLoop loop = some shape ∧ ¬(shape.head repeatedLoop).Legal := by
  rcases head_globalLoop_repeatedLoop with
    ⟨⟨loop, inTree, spelled, replaced, shape, shaped, headEq⟩,
      ⟨other, otherInTree, otherSpelled, otherReplaced, otherShape, otherShaped, otherHeadEq⟩⟩
  rw [Option.mem_toList] at shaped otherShaped
  refine ⟨⟨loop, inTree, spelled, replaced, shape, shaped, ?_⟩,
    ⟨other, otherInTree, otherSpelled, otherReplaced, otherShape, otherShaped, ?_⟩⟩
  · intro legal
    rw [headEq] at legal
    exact legal.globals "_GET" (by decide) (by decide)
  · intro legal
    rw [otherHeadEq] at legal
    exact absurd legal.parameters (by decide)

end LoopShape

end LoopLift
