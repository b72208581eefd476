/-
This file reads the traversal of a layer tree as a recursion, and cuts it into segments.

The traversal that runs keeps a stack. It emits the layers in the order that `Layer.order` states as
a recursion: what is below a layer, then the layer itself. So every layer of a tree owns one segment
of the order, which ends with the layer, and all that a step does to a tree it does to segments.
-/

import LayeredConfig.Layer.Tree

namespace LayeredConfig

namespace Layer

/-! ### Induction over layers -/

theorem count_le_countAll {child : Layer} {found : List Layer} (member : child ∈ found) :
    child.count ≤ countAll found := by
  induction found with
  | nil => cases member
  | cons head rest inductionHypothesis =>
    rw [countAll]
    rcases List.mem_cons.mp member with rfl | inRest
    · omega
    · have := inductionHypothesis inRest
      omega

theorem count_child_lt {layer child : Layer} {phase : Phase} {found : List Layer}
    (attached : layer.children phase = some found) (member : child ∈ found) :
    child.count < layer.count := by
  have small := count_le_countAll member
  obtain ⟨stamp, revision, role, before, after⟩ := layer
  cases phase with
  | before =>
    obtain rfl : before = some found := attached
    simp only [count, countPhase]
    omega
  | after =>
    obtain rfl : after = some found := attached
    simp only [count, countPhase]
    omega

/-- A layer is settled once its children are. -/
theorem treeInduction {motive : Layer → Prop}
    (step : ∀ layer : Layer, (∀ phase found, layer.children phase = some found →
      ∀ child ∈ found, motive child) → motive layer) (layer : Layer) : motive layer :=
  step layer fun _ _ attached child member =>
    have := count_child_lt attached member
    treeInduction step child
  termination_by layer.count

/-! ### The order as a list -/

/-- Everything below a layer, the strongest first. -/
def descendants (layer : Layer) : List Layer :=
  orderPhase (layer.children .after) ++ orderPhase (layer.children .before)

theorem order_eq (layer : Layer) : layer.order = layer.descendants ++ [layer] := by
  cases layer
  rfl

theorem orderAll_eq (found : List Layer) : orderAll found = found.reverse.flatMap order := by
  induction found with
  | nil => rfl
  | cons layer rest inductionHypothesis =>
    rw [orderAll, inductionHypothesis, List.reverse_cons, List.flatMap_append,
      List.flatMap_singleton]

theorem orderAll_append (first second : List Layer) :
    orderAll (first ++ second) = orderAll second ++ orderAll first := by
  simp only [orderAll_eq, List.reverse_append, List.flatMap_append]

theorem self_mem_order (layer : Layer) : layer ∈ layer.order := by
  rw [order_eq]
  exact List.mem_append_right _ List.mem_cons_self

theorem mem_orderAll {other : Layer} {found : List Layer} :
    other ∈ orderAll found ↔ ∃ child ∈ found, other ∈ child.order := by
  simp only [orderAll_eq, List.mem_flatMap, List.mem_reverse]

theorem mem_descendants {other layer : Layer} :
    other ∈ layer.descendants ↔
      ∃ phase found, layer.children phase = some found ∧ ∃ child ∈ found, other ∈ child.order := by
  have inPhase (phase : Phase) :
      other ∈ orderPhase (layer.children phase) ↔
        ∃ found, layer.children phase = some found ∧ ∃ child ∈ found, other ∈ child.order := by
    cases layer.children phase with
    | none => simp [orderPhase]
    | some found => simp [orderPhase, mem_orderAll]
  rw [descendants, List.mem_append, inPhase, inPhase]
  constructor
  · rintro (inside | inside) <;> exact ⟨_, inside⟩
  · rintro ⟨phase, inside⟩
    cases phase with
    | before => exact Or.inr inside
    | after => exact Or.inl inside

theorem mem_order {other layer : Layer} :
    other ∈ layer.order ↔ other ∈ layer.descendants ∨ other = layer := by
  rw [order_eq, List.mem_append, List.mem_singleton]

theorem child_mem_order {layer child : Layer} {phase : Phase} {found : List Layer}
    (attached : layer.children phase = some found) (member : child ∈ found) :
    child ∈ layer.order :=
  mem_order.mpr (Or.inl (mem_descendants.mpr ⟨phase, found, attached, child, member,
    self_mem_order child⟩))

/-- The children that a phase attached own one segment of what is below the layer. -/
theorem descendants_split {layer : Layer} {phase : Phase} {found : List Layer}
    (attached : layer.children phase = some found) :
    ∃ front back, layer.descendants = front ++ orderAll found ++ back := by
  cases phase with
  | before =>
    refine ⟨orderPhase (layer.children .after), [], ?_⟩
    rw [descendants, attached, List.append_nil]
    rfl
  | after =>
    refine ⟨[], orderPhase (layer.children .before), ?_⟩
    rw [descendants, attached, List.nil_append]
    rfl

/-- Every layer of a tree owns one segment of the order. -/
theorem order_split {other layer : Layer} (member : other ∈ layer.order) :
    ∃ front back, layer.order = front ++ other.order ++ back := by
  induction layer using treeInduction with
  | step layer inductionHypothesis =>
    rcases mem_order.mp member with inside | rfl
    · obtain ⟨phase, found, attached, child, childMember, inChild⟩ := mem_descendants.mp inside
      obtain ⟨front, back, childOrder⟩ :=
        inductionHypothesis phase found attached child childMember inChild
      obtain ⟨earlier, later, rfl⟩ := List.append_of_mem childMember
      obtain ⟨outerFront, outerBack, descendantsEq⟩ := descendants_split attached
      refine ⟨outerFront ++ orderAll later ++ front,
        back ++ orderAll earlier ++ outerBack ++ [layer], ?_⟩
      rw [order_eq, descendantsEq, orderAll_append, orderAll, childOrder]
      simp only [List.append_assoc]
    · exact ⟨[], [], by rw [List.nil_append, List.append_nil]⟩

theorem mem_order_trans {first second third : Layer} (inner : first ∈ second.order)
    (outer : second ∈ third.order) : first ∈ third.order := by
  obtain ⟨front, back, split⟩ := order_split outer
  rw [split]
  exact List.mem_append_left _ (List.mem_append_right _ inner)

/-! ### The traversal with a stack -/

theorem walk_pushAll (found : List Layer)
    (visits : ∀ child ∈ found, ∀ stack, walk (.visit child :: stack) = child.order ++ walk stack)
    (stack : List Step) : walk (pushAll found stack) = orderAll found ++ walk stack := by
  induction found generalizing stack with
  | nil => rfl
  | cons layer rest inductionHypothesis =>
    rw [pushAll,
      inductionHypothesis fun child member => visits child (List.mem_cons_of_mem _ member),
      visits layer List.mem_cons_self, orderAll, List.append_assoc]

/-- To visit a layer is to emit its order. -/
theorem walk_visit (layer : Layer) (stack : List Step) :
    walk (.visit layer :: stack) = layer.order ++ walk stack := by
  induction layer using treeInduction generalizing stack with
  | step layer inductionHypothesis =>
    have phaseVisits (phase : Phase) (stack : List Step) :
        walk (pushPhase (layer.children phase) stack) =
          orderPhase (layer.children phase) ++ walk stack := by
      cases attached : layer.children phase with
      | none => rfl
      | some found => exact walk_pushAll found (inductionHypothesis phase found attached ·) stack
    obtain ⟨stamp, revision, role, before, after⟩ := layer
    rw [walk]
    rw [show walk (pushPhase after _) = orderPhase after ++ _ from phaseVisits .after _,
      show walk (pushPhase before _) = orderPhase before ++ _ from phaseVisits .before _, walk,
      order]
    simp only [List.append_assoc, List.singleton_append]

end Layer

/-- The layers of a tree come in the order that the recursion states. -/
theorem LayerTree.layers_eq (tree : LayerTree) : tree.layers = tree.root.order := by
  rw [layers, Layer.walk_visit]
  rw [Layer.walk, List.append_nil]

namespace LayerTree

variable {tree : LayerTree} {layer : Layer} {phase : Phase} {found : List Layer}

/-- The children of a layer of the tree are layers of the tree. -/
theorem child_mem_layers {child : Layer} (member : layer ∈ tree.layers)
    (attached : layer.children phase = some found) (isChild : child ∈ found) :
    child ∈ tree.layers := by
  rw [layers_eq] at member ⊢
  exact Layer.mem_order_trans (Layer.child_mem_order attached isChild) member

/-- A layer of the tree stands behind all that is below it, in one segment. -/
theorem layers_around (member : layer ∈ tree.layers) :
    ∃ front back, tree.layers = front ++ (layer.descendants ++ [layer]) ++ back := by
  rw [layers_eq] at member
  obtain ⟨front, back, split⟩ := Layer.order_split member
  rw [Layer.order_eq layer, ← layers_eq] at split
  exact ⟨front, back, split⟩

/-- The children that a phase attached own one segment of the tree. -/
theorem layers_split (member : layer ∈ tree.layers)
    (attached : layer.children phase = some found) :
    ∃ front back, tree.layers = front ++ Layer.orderAll found ++ back := by
  obtain ⟨front, back, split⟩ := layers_around member
  obtain ⟨inFront, inBack, descendants⟩ := Layer.descendants_split attached
  refine ⟨front ++ inFront, inBack ++ [layer] ++ back, ?_⟩
  rw [split, descendants]
  simp only [List.append_assoc]

end LayerTree

end LayeredConfig
