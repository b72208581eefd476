/-
This file says where a traversal comes to: to every place in a tree once.

Layers are values, so two places in a tree may hold the same layer. A place is known by the way that
leads to it from the root: the phase and the number of the child in each step. The ways are listed
by the recursion that states the order of the layers, and each leads to the layer at its position.
What is below a place is reached by a longer way, and comes earlier.
-/

import LayeredConfig.Proofs.Layer.Order
import Mathlib.Data.List.Nodup
import Mathlib.Data.List.Range

namespace LayeredConfig

namespace Layer

/-! ### Ways -/

/-- The steps from a layer down to one below it: the phase and the number of each child. -/
abbrev Way := List (Phase × Nat)

/-- The layer that a way leads to. -/
def at? (layer : Layer) : Way → Option Layer
  | [] => some layer
  | (phase, number) :: way =>
    match (layer.children phase).bind (·[number]?) with
    | some child => child.at? way
    | none => none

mutual

/-- The ways to what is below a layer and to the layer itself, in the order of the layers. -/
def ways : Layer → List Way
  | node _ _ _ before after => waysPhase .after after ++ waysPhase .before before ++ [[]]

def waysPhase (phase : Phase) : Option (List Layer) → List Way
  | none => []
  | some found => waysAll phase 0 found

/-- The ways through children that are numbered from a first one on. -/
def waysAll (phase : Phase) (first : Nat) : List Layer → List Way
  | [] => []
  | layer :: rest => waysAll phase (first + 1) rest ++ layer.ways.map ((phase, first) :: ·)

end

theorem ways_eq (layer : Layer) :
    layer.ways = waysPhase .after (layer.children .after) ++
      waysPhase .before (layer.children .before) ++ [[]] := by
  cases layer
  rw [ways]
  rfl

theorem waysAll_eq (phase : Phase) (first : Nat) (found : List Layer) :
    waysAll phase first found = (found.zipIdx first).reverse.flatMap fun (child, number) =>
      child.ways.map ((phase, number) :: ·) := by
  induction found generalizing first with
  | nil => rfl
  | cons layer rest inductionHypothesis =>
    rw [waysAll, inductionHypothesis, List.zipIdx_cons, List.reverse_cons, List.flatMap_append,
      List.flatMap_singleton]

theorem at?_cons {layer child : Layer} {phase : Phase} {found : List Layer} {number : Nat}
    (attached : layer.children phase = some found) (isChild : found[number]? = some child)
    (way : Way) : layer.at? ((phase, number) :: way) = child.at? way := by
  rw [at?, attached, Option.bind_some, isChild]

theorem mem_waysPhase {layer : Layer} {phase : Phase} {way : Way} :
    way ∈ waysPhase phase (layer.children phase) ↔
      ∃ found number child, layer.children phase = some found ∧ found[number]? = some child ∧
        ∃ more ∈ child.ways, (phase, number) :: more = way := by
  cases attached : layer.children phase with
  | none => simp [waysPhase]
  | some found =>
    rw [waysPhase, waysAll_eq, List.mem_flatMap]
    constructor
    · rintro ⟨⟨child, number⟩, member, inside⟩
      rw [List.mem_reverse, List.mk_mem_zipIdx_iff_getElem?] at member
      exact ⟨found, number, child, rfl, member, List.mem_map.mp inside⟩
    · rintro ⟨_, number, child, same, isChild, inside⟩
      obtain rfl := Option.some.inj same
      refine ⟨(child, number), ?_, List.mem_map.mpr inside⟩
      rw [List.mem_reverse, List.mk_mem_zipIdx_iff_getElem?]
      exact isChild

theorem exists_cons_of_mem_waysPhase {layer : Layer} {phase : Phase} {way : Way}
    (member : way ∈ waysPhase phase (layer.children phase)) :
    ∃ number more, way = (phase, number) :: more := by
  obtain ⟨_, number, _, _, _, more, _, rfl⟩ := mem_waysPhase.mp member
  exact ⟨number, more, rfl⟩

theorem mem_ways {layer : Layer} {way : Way} :
    way ∈ layer.ways ↔ (∃ phase, way ∈ waysPhase phase (layer.children phase)) ∨ way = [] := by
  rw [ways_eq, List.mem_append, List.mem_append, List.mem_singleton]
  refine or_congr_left ⟨fun inside => inside.elim (⟨_, ·⟩) (⟨_, ·⟩), fun ⟨phase, inside⟩ => ?_⟩
  cases phase with
  | before => exact Or.inr inside
  | after => exact Or.inl inside

/-! ### The layers at the ends of the ways -/

/-- Each way leads to the layer at its position. -/
theorem map_at?_ways (layer : Layer) : layer.ways.map layer.at? = layer.order.map some := by
  induction layer using treeInduction with
  | step layer inductionHypothesis =>
    have inPhase (phase : Phase) :
        (waysPhase phase (layer.children phase)).map layer.at? =
          (orderPhase (layer.children phase)).map some := by
      cases attached : layer.children phase with
      | none => rfl
      | some found =>
        calc
          (waysAll phase 0 found).map layer.at?
            = found.zipIdx.reverse.flatMap fun child =>
                (child.1.ways.map ((phase, child.2) :: ·)).map layer.at? := by
              rw [waysAll_eq, List.map_flatMap]
          _ = found.zipIdx.reverse.flatMap fun child => child.1.order.map some := by
              refine List.flatMap_congr fun child member => ?_
              have isChild := List.mk_mem_zipIdx_iff_getElem?.mp (List.mem_reverse.mp member)
              rw [List.map_map, ← inductionHypothesis phase found attached child.1
                (List.mem_of_getElem? isChild)]
              exact List.map_congr_left fun way _ => at?_cons attached isChild way
          _ = (orderAll found).map some := by
              rw [orderAll_eq, List.map_flatMap]
              conv_rhs => rw [← List.zipIdx_map_fst 0 found, ← List.map_reverse, List.flatMap_map]
    rw [ways_eq, order_eq, descendants, List.map_append, List.map_append, inPhase, inPhase]
    simp only [List.map_append]
    rfl

/-- All places are come to. -/
theorem mem_ways_of_at? {layer : Layer} {way : Way} (leads : (layer.at? way).isSome = true) :
    way ∈ layer.ways := by
  induction way generalizing layer with
  | nil => exact mem_ways.mpr (Or.inr rfl)
  | cons step way inductionHypothesis =>
    obtain ⟨phase, number⟩ := step
    rw [at?] at leads
    split at leads
    · next child isChild =>
      obtain ⟨found, attached, isChild⟩ := Option.bind_eq_some_iff.mp isChild
      exact mem_ways.mpr (Or.inl ⟨phase, mem_waysPhase.mpr
        ⟨found, number, child, attached, isChild, way, inductionHypothesis leads, rfl⟩⟩)
    · cases leads

/-! ### What comes before what -/

/-- The second way leads to no place at which the first one ends or which is below it. -/
def Apart (first second : Way) : Prop :=
  ¬first <+: second

theorem apart_cons {step other : Phase × Nat} {first second : Way} :
    Apart (step :: first) (other :: second) ↔ step = other → Apart first second := by
  rw [Apart, List.cons_prefix_cons, not_and]
  rfl

/-- No place comes before what is below it, and none comes twice. -/
theorem pairwise_ways (layer : Layer) : layer.ways.Pairwise Apart := by
  induction layer using treeInduction with
  | step layer inductionHypothesis =>
    have inPhase (phase : Phase) : (waysPhase phase (layer.children phase)).Pairwise Apart := by
      cases attached : layer.children phase with
      | none => exact .nil
      | some found =>
        -- Ways through one child differ behind their first step, those through two children in it.
        rw [waysPhase, waysAll_eq, List.pairwise_flatMap]
        constructor
        · rintro ⟨child, number⟩ member
          have isChild := List.mk_mem_zipIdx_iff_getElem?.mp (List.mem_reverse.mp member)
          have below := inductionHypothesis phase found attached child
            (List.mem_of_getElem? isChild)
          exact below.map _ fun _ _ apart => apart_cons.mpr fun _ => apart
        · have numbered : found.zipIdx.reverse.Pairwise fun child other => child.2 ≠ other.2 := by
            rw [← List.pairwise_map, List.map_reverse, List.zipIdx_map_snd]
            exact List.nodup_reverse.mpr List.nodup_range'
          refine numbered.imp fun {child other} differ first inFirst second inSecond => ?_
          obtain ⟨_, _, rfl⟩ := List.mem_map.mp inFirst
          obtain ⟨_, _, rfl⟩ := List.mem_map.mp inSecond
          exact apart_cons.mpr fun same => absurd (Prod.mk.inj same).2 differ
    rw [ways_eq, List.pairwise_append, List.pairwise_append]
    refine ⟨⟨inPhase .after, inPhase .before, fun first isAfter second isBefore => ?_⟩,
      List.pairwise_singleton _ _, fun first below second isSelf => ?_⟩
    · obtain ⟨_, _, rfl⟩ := exists_cons_of_mem_waysPhase isAfter
      obtain ⟨_, _, rfl⟩ := exists_cons_of_mem_waysPhase isBefore
      exact apart_cons.mpr nofun
    · obtain rfl := List.mem_singleton.mp isSelf
      have isCons : ∃ step more, first = step :: more := by
        rcases List.mem_append.mp below with isAfter | isBefore
        · obtain ⟨_, _, rfl⟩ := exists_cons_of_mem_waysPhase isAfter
          exact ⟨_, _, rfl⟩
        · obtain ⟨_, _, rfl⟩ := exists_cons_of_mem_waysPhase isBefore
          exact ⟨_, _, rfl⟩
      obtain ⟨step, more, rfl⟩ := isCons
      exact fun leads => List.cons_ne_nil _ _ (List.prefix_nil.mp leads)

/-! ### Traversals -/

/-- A traversal from a layer downwards: the layers in the order of some ways to them. -/
structure Traverses (root : Layer) (layers : List Layer) (ways : List Way) : Prop where
  leads : ways.map root.at? = layers.map some
  complete : ∀ way, (root.at? way).isSome = true → way ∈ ways
  once : ways.Nodup
  behind : ways.Pairwise Apart
  last : ways.getLast? = some []

theorem traverses_order (root : Layer) : Traverses root root.order root.ways where
  leads := map_at?_ways root
  complete _ := mem_ways_of_at?
  once := (pairwise_ways root).imp fun {first second} apart same => by
    rw [same] at apart
    exact apart List.prefix_rfl
  behind := pairwise_ways root
  last := by rw [ways_eq, List.getLast?_concat]

/-- The layers that a pending step leads to, in order. -/
def Step.layers : Step → List Layer
  | visit layer => layer.order
  | emit layer => [layer]

/-- What a traversal still comes to is what its pending steps lead to. -/
theorem walk_eq (stack : List Step) : walk stack = stack.flatMap Step.layers := by
  induction stack with
  | nil => rw [walk, List.flatMap_nil]
  | cons step stack inductionHypothesis =>
    cases step with
    | visit layer => rw [walk_visit, inductionHypothesis, List.flatMap_cons, Step.layers]
    | emit layer =>
      rw [walk, inductionHypothesis, List.flatMap_cons, Step.layers, List.singleton_append]

/-- The children that a phase attached. -/
def attached (layer : Layer) (phase : Phase) : List Layer :=
  (layer.children phase).getD []

theorem order_eq_of_attached (layer : Layer) :
    layer.order = (layer.attached .after).reverse.flatMap order ++
      (layer.attached .before).reverse.flatMap order ++ [layer] := by
  have inPhase (phase : Phase) : orderPhase (layer.children phase) =
      (layer.attached phase).reverse.flatMap order := by
    rw [attached]
    cases layer.children phase with
    | none => rfl
    | some found => exact orderAll_eq found
  rw [order_eq, descendants, inPhase, inPhase]

end Layer

/-- The traversal with a stack comes to the layers in the order of a recursion: for a layer, the
orders of the children that were attached when profiles were known, the last child first, then those
of the other children, the last one first, and then the layer itself. So it comes to each place in
the tree once, after every place below it, and at the end to the root. -/
theorem LayerTree.traversed_by_recursion (tree : LayerTree) :
    tree.layers = tree.root.order ∧
    (∀ layer : Layer, layer.order = (layer.attached .after).reverse.flatMap Layer.order ++
      (layer.attached .before).reverse.flatMap Layer.order ++ [layer]) ∧
    (∀ stack, Layer.walk stack = stack.flatMap Layer.Step.layers) ∧
    ∃ ways, Layer.Traverses tree.root tree.layers ways := by
  refine ⟨tree.layers_eq, Layer.order_eq_of_attached, Layer.walk_eq, tree.root.ways, ?_⟩
  rw [tree.layers_eq]
  exact tree.root.traverses_order

end LayeredConfig
