import LoopLift.Proofs.Loop.Capture
import LoopLift.Proofs.Loop.Rewriting
import Mathlib.Data.List.Forall2

/-!
# Loops that read alike

Two nodes, each with a source of its own, read alike when they have the same kinds and texts
all the way down, and one lies at a fixed distance behind the other. Whatever is asked of a
loop then has the same answer for both: its shape, the jumps in its body, the names that are
read there and its replacement. Rows, columns and the text around the loop do not matter,
and neither do errors below the children of the loop.
-/

namespace LoopLift

open Syntax

/-! ## Lists of related elements -/

section Related

variable {α β γ : Type} {related : α → β → Prop} {left : List α} {right : List β}

theorem map_eq_of_rel {item : Option α} {twin : Option β} {image : α → γ} {twinImage : β → γ}
    (pair : Option.Rel related item twin)
    (agree : ∀ item twin, related item twin → twinImage twin = image item) :
    twin.map twinImage = item.map image := by
  cases pair with
  | none => rfl
  | some same => rw [Option.map_some, Option.map_some, agree _ _ same]

theorem map_eq_of_forall₂ {image : α → γ} {twinImage : β → γ}
    (pairs : List.Forall₂ related left right)
    (agree : ∀ item twin, related item twin → twinImage twin = image item) :
    right.map twinImage = left.map image := by
  induction pairs with
  | nil => rfl
  | cons first _ ih => rw [List.map_cons, List.map_cons, agree _ _ first, ih]

variable {test : α → Bool} {twinTest : β → Bool}

theorem any_eq_of_forall₂ (pairs : List.Forall₂ related left right)
    (agree : ∀ item twin, related item twin → twinTest twin = test item) :
    right.any twinTest = left.any test := by
  induction pairs with
  | nil => rfl
  | cons first _ ih => rw [List.any_cons, List.any_cons, agree _ _ first, ih]

theorem forall₂_filter (pairs : List.Forall₂ related left right)
    (agree : ∀ item twin, related item twin → twinTest twin = test item) :
    List.Forall₂ related (left.filter test) (right.filter twinTest) := by
  refine List.rel_filter ?_ pairs
  intro item twin same
  exact Bool.eq_iff_iff.mp (agree item twin same).symm

theorem forall₂_takeWhile (pairs : List.Forall₂ related left right)
    (agree : ∀ item twin, related item twin → twinTest twin = test item) :
    List.Forall₂ related (left.takeWhile test) (right.takeWhile twinTest) := by
  induction pairs with
  | nil => exact .nil
  | @cons item twin _ _ first _ ih =>
      rw [List.takeWhile_cons, List.takeWhile_cons, agree item twin first]
      split
      · exact .cons first ih
      · exact .nil

theorem rel_find? (pairs : List.Forall₂ related left right)
    (agree : ∀ item twin, related item twin → twinTest twin = test item) :
    Option.Rel related (left.find? test) (right.find? twinTest) := by
  induction pairs with
  | nil => exact .none
  | @cons item twin _ _ first _ ih =>
      rw [List.find?_cons, List.find?_cons, agree item twin first]
      split
      · exact .some first
      · exact ih

end Related

/-! ## Nodes -/

namespace Syntax.Node

/-- A node in a source and its twin in another source read alike: they agree in kind and
text, and so do their children one by one. The twin starts at a fixed distance behind the
node. -/
inductive Alike (source other : String) (distance : Int) : Node → Node → Prop where
  | intro {node twin : Node} (kind : twin.kind = node.kind) (named : twin.named = node.named)
      (text : twin.text other = node.text source)
      (start : (twin.start : Int) = node.start + distance)
      (children : List.Forall₂ (Alike source other distance) node.children twin.children) :
      Alike source other distance node twin

namespace Alike

variable {source other : String} {distance : Int} {node twin : Node}

theorem kind_eq (alike : Alike source other distance node twin) : twin.kind = node.kind := by
  cases alike
  assumption

theorem text_eq (alike : Alike source other distance node twin) :
    twin.text other = node.text source := by
  cases alike
  assumption

theorem start_eq (alike : Alike source other distance node twin) :
    (twin.start : Int) = node.start + distance := by
  cases alike
  assumption

theorem children (alike : Alike source other distance node twin) :
    List.Forall₂ (Alike source other distance) node.children twin.children := by
  cases alike
  assumption

theorem isPart_eq (alike : Alike source other distance node twin) :
    LoopShape.isPart twin = LoopShape.isPart node := by
  rcases alike with ⟨kind, named⟩
  rw [LoopShape.isPart, LoopShape.isPart, isTrivia, isTrivia, kind, named]

theorem namedChildren (alike : Alike source other distance node twin) :
    List.Forall₂ (Alike source other distance) node.namedChildren twin.namedChildren :=
  forall₂_filter alike.children fun _ _ child => child.isPart_eq

theorem any_kind_eq (alike : Alike source other distance node twin) (kind : String) :
    (twin.children.any fun child => child.kind == kind) =
      node.children.any fun child => child.kind == kind := by
  refine any_eq_of_forall₂ alike.children ?_
  intro child childTwin same
  rw [same.kind_eq]

theorem childOfKind? (alike : Alike source other distance node twin) (kind : String) :
    Option.Rel (Alike source other distance) (node.childOfKind? kind)
      (twin.childOfKind? kind) := by
  refine rel_find? alike.children ?_
  intro child childTwin same
  rw [same.kind_eq]

/-- The walks of nodes that read alike visit such nodes under such parents. -/
theorem walkFrom {parent parentTwin : Option Node}
    (parents : Option.Rel (Alike source other distance) parent parentTwin)
    (alike : Alike source other distance node twin) :
    List.Forall₂ (fun visit twinVisit => Alike source other distance visit.1 twinVisit.1 ∧
        Option.Rel (Alike source other distance) visit.2 twinVisit.2)
      (walkFrom parent node) (walkFrom parentTwin twin) := by
  induction node using inductionOnChildren generalizing parent parentTwin twin with
  | step node ih =>
      rw [walkFrom_eq, walkFrom_eq, walkEach_eq, walkEach_eq]
      refine .cons ⟨alike, parents⟩ ?_
      have pairs := (List.forall₂_and_left _ _).mpr ⟨ih, alike.children⟩
      apply List.rel_flatMap pairs
      intro child childTwin same
      exact same.1 (.some alike) same.2

end Alike

end Syntax.Node

/-! ## The shape of a loop -/

namespace LoopShape

variable {source other : String} {distance : Int}

/-- Two shapes whose parts read alike, and whose bodies have the same texts. -/
structure Alike (source other : String) (distance : Int) (shape twin : LoopShape) : Prop where
  iterable : Node.Alike source other distance shape.iterable twin.iterable
  key : Option.Rel (Node.Alike source other distance) shape.key twin.key
  value : Node.Alike source other distance shape.value twin.value
  bodyNodes : List.Forall₂ (Node.Alike source other distance) shape.bodyNodes twin.bodyNodes
  body : twin.body = shape.body

theorem parts_alike {loop twin : Node} (alike : Node.Alike source other distance loop twin) :
    List.Forall₂ (Node.Alike source other distance) (parts loop) (parts twin) := by
  refine forall₂_filter (forall₂_takeWhile alike.children ?_) ?_
  · intro child childTwin same
    rw [endsLoop, endsLoop, same.kind_eq]
  · intro child childTwin same
    exact same.isPart_eq

theorem binding?_alike {binding twin : Node}
    (alike : Node.Alike source other distance binding twin) :
    Option.Rel (fun bound twinBound =>
        Option.Rel (Node.Alike source other distance) bound.1 twinBound.1 ∧
          Node.Alike source other distance bound.2 twinBound.2)
      (binding? binding) (binding? twin) := by
  rw [binding?, binding?, alike.kind_eq]
  split
  · exact .some ⟨.none, alike⟩
  · split
    · have sides := alike.namedChildren
      generalize binding.namedChildren = named at sides ⊢
      generalize twin.namedChildren = twinNamed at sides ⊢
      rcases sides with _ | ⟨key, _ | ⟨value, rest⟩⟩
      · exact .none
      · exact .none
      · simp only [key.kind_eq, value.kind_eq]
        split
        · exact .some ⟨.some key, value⟩
        · exact .none
    · exact .none

section Bodies

variable {nodes twins : List Node}

theorem hasInlineText_eq
    (alike : List.Forall₂ (Node.Alike source other distance) nodes twins) :
    hasInlineText twins = hasInlineText nodes := by
  refine any_eq_of_forall₂ alike ?_
  intro node twin same
  rw [same.kind_eq, same.any_kind_eq]

theorem texts_eq (alike : List.Forall₂ (Node.Alike source other distance) nodes twins) :
    twins.map (Node.text other) = nodes.map (Node.text source) :=
  map_eq_of_forall₂ alike fun _ _ same => same.text_eq

theorem bodyOf_eq (alike : List.Forall₂ (Node.Alike source other distance) nodes twins) :
    bodyOf other twins = bodyOf source nodes := by
  rcases alike with _ | ⟨first, _ | ⟨second, rest⟩⟩
  · rfl
  · rw [bodyOf, bodyOf, first.kind_eq, first.text_eq, texts_eq first.namedChildren]
  · rfl

theorem classify_eq (alternative : Bool)
    (alike : List.Forall₂ (Node.Alike source other distance) nodes twins) :
    classify other alternative twins = classify source alternative nodes := by
  rw [classify, classify, hasInlineText_eq alike, texts_eq alike, bodyOf_eq alike]

end Bodies

/-- Loops that read alike have shapes that read alike, or none, if both have an error among
their children or neither has. -/
theorem ofNode?_alike {loop twin : Node} (alike : Node.Alike source other distance loop twin)
    (errors : twin.children.any Node.error = loop.children.any Node.error) :
    Option.Rel (LoopShape.Alike source other distance) (ofNode? source loop)
      (ofNode? other twin) := by
  rw [ofNode?, ofNode?, alike.kind_eq, errors, alike.any_kind_eq ":"]
  split
  · exact .none
  · have partsAlike := parts_alike alike
    generalize parts loop = own at partsAlike ⊢
    generalize parts twin = others at partsAlike ⊢
    rcases partsAlike with _ | ⟨iterable, _ | ⟨binding, bodyNodes⟩⟩
    · exact .none
    · exact .none
    · rename_i _ _ binding' bindingTwin _ _
      have bound := binding?_alike binding
      simp only
      generalize binding? binding' = own at bound ⊢
      generalize binding? bindingTwin = others at bound ⊢
      cases bound with
      | none => exact .none
      | some bound =>
          exact .some ⟨iterable, bound.1, bound.2, bodyNodes, classify_eq _ bodyNodes⟩

theorem bareName_eq {node twin : Node} (alike : Node.Alike source other distance node twin) :
    bareName other twin = bareName source node := by
  have named := map_eq_of_rel (alike.childOfKind? "name") fun _ _ same => same.text_eq
  rw [bareName, bareName, ← Option.getD_map (Node.text other),
    ← Option.getD_map (Node.text source), named, alike.text_eq]

end LoopShape

/-! ## Jumps -/

namespace Jump

variable {source other : String} {distance : Int} {node twin : Node}

theorem levels_eq (alike : Node.Alike source other distance node twin) :
    levels other twin = levels source node := by
  have found : Option.Rel (Node.Alike source other distance)
      (node.namedChildren.find? fun child => child.kind == "integer")
      (twin.namedChildren.find? fun child => child.kind == "integer") := by
    refine rel_find? alike.namedChildren ?_
    intro child childTwin same
    rw [same.kind_eq]
  have texts := map_eq_of_rel found fun _ _ same => same.text_eq
  rw [levels, levels, ← Function.comp_def levelOfText?, ← Function.comp_def levelOfText?,
    ← Option.bind_map, ← Option.bind_map, texts]

theorem escapes_alike (depth : Nat) (inScope : Bool)
    (alike : Node.Alike source other distance node twin) :
    escapes other depth inScope twin = escapes source depth inScope node := by
  induction node using Node.inductionOnChildren generalizing depth inScope twin with
  | step node ih =>
      have pairs := (List.forall₂_and_left _ _).mpr ⟨ih, alike.children⟩
      rw [escapes_eq, escapes_eq, leaves, leaves, levels_eq alike, alike.kind_eq]
      congr 1
      refine any_eq_of_forall₂ pairs ?_
      intro child childTwin same
      exact same.1 _ _ same.2

end Jump

/-! ## Names that are read -/

namespace Capture

variable {source other : String} {distance : Int}

theorem referenceName_eq {node twin : Node} (alike : Node.Alike source other distance node twin) :
    referenceName other twin = referenceName source node := by
  have named := map_eq_of_rel (alike.childOfKind? "name") fun _ _ same => same.text_eq
  rw [referenceName, referenceName, alike.kind_eq, LoopShape.bareName_eq alike, named]

/-- Where a variable stands before or behind the `::` of its parent does not change with the
distance, as both move together. -/
theorem isReference_eq {node twin : Node} {parent parentTwin : Option Node}
    (alike : Node.Alike source other distance node twin)
    (parents : Option.Rel (Node.Alike source other distance) parent parentTwin) :
    isReference twin parentTwin = isReference node parent := by
  cases parents with
  | none => simp only [isReference, alike.kind_eq]
  | @some parent parentTwin same =>
      have separator := same.childOfKind? "::"
      simp only [isReference, alike.kind_eq, same.kind_eq]
      generalize parent.childOfKind? "::" = own at separator ⊢
      generalize parentTwin.childOfKind? "::" = others at separator ⊢
      cases separator with
      | none => rfl
      | @some sign signTwin behind =>
          have order : twin.start < signTwin.start ↔ node.start < sign.start := by
            have start := alike.start_eq
            have signStart := behind.start_eq
            omega
          simp only [order]

theorem references_alike {roots twins : List Node}
    (alike : List.Forall₂ (Node.Alike source other distance) roots twins) :
    references other twins = references source roots := by
  have walks : List.Forall₂ (fun visit twinVisit =>
      Node.Alike source other distance visit.1 twinVisit.1 ∧
        Option.Rel (Node.Alike source other distance) visit.2 twinVisit.2)
      (roots.flatMap Node.walk) (twins.flatMap Node.walk) := by
    apply List.rel_flatMap alike
    intro root twin same
    exact same.walkFrom .none
  rw [references_eq, references_eq]
  refine map_eq_of_forall₂ (forall₂_filter walks ?_) ?_
  · intro visit twinVisit same
    exact isReference_eq same.1 same.2
  · intro visit twinVisit same
    exact referenceName_eq same.1

end Capture

/-! ## Loops -/

variable {source other : String} {distance : Int}

namespace LoopShape.Alike

variable {shape twin : LoopShape}

theorem arguments_alike (alike : LoopShape.Alike source other distance shape twin) :
    twin.arguments other = shape.arguments source := by
  have key := map_eq_of_rel alike.key fun _ _ same => same.text_eq
  have listed := congrArg (fun text => text.elim "" (", " ++ ·)) key
  simp only [Option.elim_map, Function.comp_def] at listed
  rw [arguments_eq, arguments_eq, alike.value.text_eq, listed]

theorem captures_eq (alike : LoopShape.Alike source other distance shape twin) :
    twin.captures other = shape.captures source := by
  have key := map_eq_of_rel alike.key fun _ _ same => bareName_eq same
  have ignored : twin.ignoredNames other = shape.ignoredNames source := by
    rw [ignoredNames, ignoredNames, List.map_append, List.map_append, ← Option.toList_map,
      ← Option.toList_map, key, List.map_singleton, List.map_singleton, bareName_eq alike.value]
  rw [captures, captures, Capture.collect, Capture.collect, ignored,
    Capture.references_alike alike.bodyNodes]

end LoopShape.Alike

/-- Loops that read alike are both offered or both refused. -/
theorem Inspection.isOffered_alike {loop twin : Node}
    (alike : Node.Alike source other distance loop twin)
    (errors : twin.children.any Node.error = loop.children.any Node.error) :
    isOffered other twin = isOffered source loop := by
  have shapes := LoopShape.ofNode?_alike alike errors
  rw [isOffered, isOffered]
  generalize LoopShape.ofNode? source loop = own at shapes ⊢
  generalize LoopShape.ofNode? other twin = others at shapes ⊢
  cases shapes with
  | none => rfl
  | some same =>
      have escapes := any_eq_of_forall₂ same.bodyNodes fun _ _ => Jump.escapes_alike 0 false
      simp only [same.body, escapes]

/-- Loops that read alike have the same replacement, or none. -/
theorem replacementText?_alike {loop twin : Node}
    (alike : Node.Alike source other distance loop twin)
    (errors : twin.children.any Node.error = loop.children.any Node.error) :
    replacementText? other twin = replacementText? source loop := by
  have shapes := LoopShape.ofNode?_alike alike errors
  rw [replacementText?, replacementText?]
  generalize LoopShape.ofNode? source loop = own at shapes ⊢
  generalize LoopShape.ofNode? other twin = others at shapes ⊢
  cases shapes with
  | none => simp only [Option.bind_eq_bind, Option.bind_none]
  | some same =>
      simp only [Option.bind_eq_bind, Option.bind_some, same.body, same.iterable.text_eq,
        same.arguments_alike, same.captures_eq]

end LoopLift
