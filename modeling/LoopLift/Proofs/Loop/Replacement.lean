import LoopLift.Loop.Replacement
import LoopLift.Proofs.Syntax.Preorder

/-!
# What a replacement carries over

The replacement of a loop is put together from texts of the loop: the iterated
expression and each statement of the body stand in it as they stood in the source.
All else of the loop is left out, in particular the comments between its statements.
-/

namespace LoopLift

open Syntax

/-- In a joined text, each item stands behind the earlier ones and their separators. -/
theorem exists_intercalate_eq {α : Type} (separator : List α) (earlier : List (List α))
    (item : List α) (later : List (List α)) :
    ∃ back, separator.intercalate (earlier ++ item :: later) =
      earlier.flatMap (· ++ separator) ++ item ++ back := by
  induction earlier with
  | nil =>
      cases later with
      | nil => exact ⟨[], by simp⟩
      | cons next later =>
          refine ⟨separator ++ separator.intercalate (next :: later), ?_⟩
          rw [List.nil_append, List.intercalate_cons_cons]
          simp
  | cons first earlier ih =>
      rcases ih with ⟨back, joined⟩
      refine ⟨back, ?_⟩
      rw [List.cons_append, List.intercalate_cons_of_ne_nil (by simp), joined]
      simp

namespace LoopShape

/-- The statements of the body of a loop. -/
def statements (loop : Node) (shape : LoopShape) : List Node :=
  if loop.children.any fun child => child.kind == ":" then shape.bodyNodes
  else
    match shape.bodyNodes with
    | [node] => if blockKinds.contains node.kind then node.namedChildren else [node]
    | _ => []

/-- The replacement of a loop up to the statements of its body. -/
def opening (source : String) (shape : LoopShape) : String :=
  "collect(" ++ shape.iterable.text source ++ ")->each(function(" ++ shape.arguments source ++
    ") " ++ (Capture.useClause? (shape.captures source)).getD "" ++ " \x7b"

/-- A shape names the parts of its loop, and its body is that of the parts behind the
binding. -/
theorem of_ofNode? {source : String} {loop : Node} {shape : LoopShape}
    (shaped : ofNode? source loop = some shape) :
    (∃ binding, parts loop = shape.iterable :: binding :: shape.bodyNodes) ∧
      shape.body = classify source (loop.children.any fun child => child.kind == ":")
        shape.bodyNodes := by
  rw [ofNode?] at shaped
  split at shaped
  · cases shaped
  · split at shaped
    · rename_i iterable binding bodyNodes partsEq
      rcases Option.map_eq_some_iff.mp shaped with ⟨⟨key, value⟩, -, rfl⟩
      exact ⟨⟨binding, partsEq⟩, rfl⟩
    · cases shaped

theorem mem_children_of_mem_parts {loop part : Node} (member : part ∈ parts loop) :
    part ∈ loop.children :=
  (List.takeWhile_sublist _).mem (List.mem_filter.mp member).1

theorem mem_children_of_mem_bodyNodes {source : String} {loop node : Node} {shape : LoopShape}
    (shaped : ofNode? source loop = some shape) (member : node ∈ shape.bodyNodes) :
    node ∈ loop.children := by
  rcases (of_ofNode? shaped).1 with ⟨binding, partsEq⟩
  apply mem_children_of_mem_parts
  rw [partsEq]
  exact List.mem_cons_of_mem _ (List.mem_cons_of_mem _ member)

/-- The statements of a body are nodes of the loop. -/
theorem mem_preorder_of_mem_statements {source : String} {loop statement : Node}
    {shape : LoopShape} (shaped : ofNode? source loop = some shape)
    (member : statement ∈ shape.statements loop) : statement ∈ loop.preorder := by
  have ofChild : ∀ child ∈ loop.children, child ∈ loop.preorder := by
    intro child inChildren
    exact Node.mem_preorder_of_child inChildren (Node.mem_preorder_self child)
  rw [statements] at member
  split at member
  · exact ofChild statement (mem_children_of_mem_bodyNodes shaped member)
  · split at member
    · rename_i node single
      have inBody : node ∈ shape.bodyNodes := by simp [single]
      have nodeInside := mem_children_of_mem_bodyNodes shaped inBody
      split at member
      · have below : statement ∈ node.children := (List.mem_filter.mp member).1
        exact Node.mem_preorder_of_child nodeInside
          (Node.mem_preorder_of_child below (Node.mem_preorder_self statement))
      · rw [List.mem_singleton.mp member]
        exact ofChild node nodeInside
    · cases member

/-- A supported body of one node is that of its statements, a line per statement. -/
theorem text?_bodyOf {source : String} {nodes : List Node} {text : String}
    (supported : (bodyOf source nodes).text? = some text) :
    ∃ node, nodes = [node] ∧
      text = "\n".intercalate
        ((if blockKinds.contains node.kind then node.namedChildren else [node]).map
          (Node.text source)) := by
  rw [bodyOf.eq_def] at supported
  split at supported
  · rename_i node
    refine ⟨node, rfl, ?_⟩
    split at supported
    · rename_i block
      rw [if_pos block]
      cases supported
      rfl
    · rename_i notBlock
      rw [if_neg notBlock]
      split at supported
      · cases supported
      · cases supported
        rfl
  · cases supported

/-- A supported body is that of the statements, a line per statement. -/
theorem text?_body {source : String} {loop : Node} {shape : LoopShape} {text : String}
    (shaped : ofNode? source loop = some shape) (supported : shape.body.text? = some text) :
    text = "\n".intercalate ((shape.statements loop).map (Node.text source)) := by
  rw [(of_ofNode? shaped).2, classify] at supported
  rw [statements]
  split at supported
  · cases supported
  · split at supported
    · rename_i alternative
      rw [if_pos alternative]
      cases supported
      rfl
    · rename_i braced
      rcases text?_bodyOf supported with ⟨node, single, textEq⟩
      rw [if_neg braced, single]
      exact textEq

theorem replacementText?_eq {source : String} {loop : Node} {shape : LoopShape} {text : String}
    (shaped : ofNode? source loop = some shape)
    (replaced : replacementText? source loop = some text) :
    text = shape.opening source ++
      "\n".intercalate ((shape.statements loop).map (Node.text source)) ++ "\x7d);" := by
  simp only [replacementText?, shaped, Option.bind_eq_bind, Option.bind_some] at replaced
  rcases Option.bind_eq_some_iff.mp replaced with ⟨body, supported, assembled⟩
  cases assembled
  rw [opening, text?_body shaped supported]

end LoopShape

/-- The replacement of a loop carries a piece of the source over, behind a front. -/
inductive Carries (source : String) (loop : Node) : List Char → Node → Prop where
  | iterable {shape : LoopShape} (shaped : LoopShape.ofNode? source loop = some shape) :
      Carries source loop "collect(".toList shape.iterable
  | statement {shape : LoopShape} {earlier later : List Node} {statement : Node}
      (shaped : LoopShape.ofNode? source loop = some shape)
      (split : shape.statements loop = earlier ++ statement :: later) :
      Carries source loop
        ((shape.opening source).toList ++
          earlier.flatMap fun other => (other.text source).toList ++ ['\n'])
        statement

/-- A carried piece stands behind its front in the replacement. -/
theorem Carries.exists_back {source : String} {loop piece : Node} {front : List Char}
    (carries : Carries source loop front piece) {text : String}
    (replaced : replacementText? source loop = some text) :
    ∃ back, text.toList = front ++ (piece.text source).toList ++ back := by
  cases carries with
  | iterable shaped =>
      rw [LoopShape.replacementText?_eq shaped replaced, LoopShape.opening]
      simp only [String.toList_append, List.append_assoc]
      exact ⟨_, rfl⟩
  | @statement shape earlier later _ shaped split =>
      rcases exists_intercalate_eq ['\n'] (earlier.map fun other => (other.text source).toList)
        (piece.text source).toList (later.map fun other => (other.text source).toList) with
        ⟨back, joined⟩
      refine ⟨back ++ "\x7d);".toList, ?_⟩
      rw [LoopShape.replacementText?_eq shaped replaced, split]
      have newline : "\n".toList = ['\n'] := rfl
      simp only [String.toList_append, String.toList_intercalate, List.map_map, List.map_append,
        List.map_cons, newline]
      rw [List.flatMap_map] at joined
      rw [Function.comp_def, joined]
      simp

theorem Carries.mem_preorder {source : String} {loop piece : Node} {front : List Char}
    (carries : Carries source loop front piece) : piece ∈ loop.preorder := by
  cases carries with
  | iterable shaped =>
      rcases (LoopShape.of_ofNode? shaped).1 with ⟨binding, partsEq⟩
      have inChildren := LoopShape.mem_children_of_mem_parts (partsEq ▸ List.mem_cons_self)
      exact Node.mem_preorder_of_child inChildren (Node.mem_preorder_self _)
  | statement shaped split =>
      exact LoopShape.mem_preorder_of_mem_statements shaped (by simp [split])

end LoopLift
