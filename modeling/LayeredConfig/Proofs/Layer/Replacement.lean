/-
This file says what the replacement of a layer does to the order of a tree.

Replacement searches the tree in the order of strength and rebuilds the layers on the way. If it
finds its target, the segment of the target makes way for the segment of the replacement; what comes
before it stays, and of what comes after it only the layers around the target are rebuilt, with the
entries that they had. It finds every layer that is in the tree, and where stamps are distinct it
finds nothing else.
-/

import LayeredConfig.Proofs.Layer.Entry
import Mathlib.Data.List.Forall2
import Mathlib.Data.List.Nodup

namespace LayeredConfig

namespace Layer

theorem isSame_self (layer : Layer) : layer.isSame layer = true := by
  rw [isSame, beq_self_eq_true, beq_self_eq_true, Bool.and_self]

theorem stamp_eq_of_isSame {first second : Layer} (same : first.isSame second = true) :
    first.stamp = second.stamp := by
  rw [isSame, Bool.and_eq_true, beq_iff_eq] at same
  exact same.1

section Search

variable {target replacement : Layer}

/-- The layer that the search stops at, or the layer rebuilt around the child that was replaced. -/
theorem replaceIn?_cases {layer new : Layer}
    (replaced : replaceIn? target replacement layer = some new) :
    (layer.isSame target = true ∧ new = replacement) ∨
      ∃ phase found rebuilt, layer.children phase = some found ∧
        replaceInAll? target replacement found = some rebuilt ∧
        new = layer.withChildren phase rebuilt := by
  obtain ⟨stamp, revision, role, before, after⟩ := layer
  rw [replaceIn?] at replaced
  split at replaced
  · next same => exact Or.inl ⟨same, (Option.some.inj replaced).symm⟩
  · right
    split at replaced
    · next rebuilt inAfter =>
      cases after with
      | none => cases inAfter
      | some found => exact ⟨.after, found, rebuilt, rfl, inAfter, (Option.some.inj replaced).symm⟩
    · split at replaced
      · next rebuilt inBefore =>
        cases before with
        | none => cases inBefore
        | some found =>
          exact ⟨.before, found, rebuilt, rfl, inBefore, (Option.some.inj replaced).symm⟩
      · cases replaced

theorem replaceInAll?_cases {found new : List Layer}
    (replaced : replaceInAll? target replacement found = some new) :
    ∃ earlier child rebuilt later, found = earlier ++ child :: later ∧
      replaceIn? target replacement child = some rebuilt ∧ new = earlier ++ rebuilt :: later := by
  induction found generalizing new with
  | nil => cases replaced
  | cons layer rest inductionHypothesis =>
    rw [replaceInAll?] at replaced
    split at replaced
    · next rebuilt here =>
      exact ⟨[], layer, rebuilt, rest, rfl, here, (Option.some.inj replaced).symm⟩
    · obtain ⟨newRest, inRest, rfl⟩ := Option.map_eq_some_iff.mp replaced
      obtain ⟨earlier, child, rebuilt, later, rfl, here, rfl⟩ := inductionHypothesis inRest
      exact ⟨layer :: earlier, child, rebuilt, later, rfl, here, rfl⟩

theorem stamp_of_replaceIn? (sameStamp : replacement.stamp = target.stamp) {layer new : Layer}
    (replaced : replaceIn? target replacement layer = some new) : new.stamp = layer.stamp := by
  rcases replaceIn?_cases replaced with ⟨same, rfl⟩ | ⟨phase, found, rebuilt, _, _, rfl⟩
  · exact sameStamp.trans (stamp_eq_of_isSame same).symm
  · exact stamp_withChildren _ _ _

/-! ### Segments change places -/

/-- A layer that comes after the target: it stays, or it stands around the target and is rebuilt. -/
inductive Rebuilt (target replacement : Layer) : Layer → Layer → Prop where
  | kept (layer : Layer) : Rebuilt target replacement layer layer
  | around {layer child newChild : Layer} {phase : Phase} {earlier later : List Layer}
      (attached : layer.children phase = some (earlier ++ child :: later))
      (replaced : replaceIn? target replacement child = some newChild) :
      Rebuilt target replacement layer
        (layer.withChildren phase (earlier ++ newChild :: later))

theorem Rebuilt.entry_eq {old new : Layer} (rebuilt : Rebuilt target replacement old new)
    (sameStamp : replacement.stamp = target.stamp) (tidy : old.Tidy) : new.entry = old.entry := by
  cases rebuilt with
  | kept => rfl
  | around attached replaced =>
    refine entry_withChildren tidy attached ?_
    simp only [List.map_append, List.map_cons, stamp_of_replaceIn? sameStamp replaced]

/-- A layer without children stands around nothing. -/
theorem Rebuilt.eq_of_leaf {old new : Layer} (rebuilt : Rebuilt target replacement old new)
    (leaf : ∀ phase, old.children phase = none) : new = old := by
  cases rebuilt with
  | kept => rfl
  | around attached =>
    rw [leaf] at attached
    cases attached

/-- A layer without children stays wherever the target stands. -/
theorem mem_rebuilt_of_leaf {old new : List Layer}
    (rebuilt : List.Forall₂ (Rebuilt target replacement) old new) {layer : Layer}
    (leaf : ∀ phase, layer.children phase = none) (member : layer ∈ old) : layer ∈ new := by
  induction rebuilt with
  | nil => cases member
  | cons head _ inductionHypothesis =>
    rcases List.mem_cons.mp member with rfl | inRest
    · rw [head.eq_of_leaf leaf]
      exact List.mem_cons_self
    · exact List.mem_cons_of_mem _ (inductionHypothesis inRest)

theorem forall₂_rebuilt_self (layers : List Layer) :
    List.Forall₂ (Rebuilt target replacement) layers layers :=
  List.forall₂_same.mpr fun layer _ => .kept layer

theorem entries_of_forall₂ (sameStamp : replacement.stamp = target.stamp) {old new : List Layer}
    (rebuilt : List.Forall₂ (Rebuilt target replacement) old new)
    (tidy : ∀ layer ∈ old, layer.Tidy) : new.map entry = old.map entry := by
  induction rebuilt with
  | nil => rfl
  | cons head _ inductionHypothesis =>
    rw [List.map_cons, List.map_cons, head.entry_eq sameStamp (tidy _ List.mem_cons_self),
      inductionHypothesis fun layer member => tidy layer (List.mem_cons_of_mem _ member)]

/-- One list of layers has the segment of the replacement where the other has that of the target. -/
def Exchanged (target replacement : Layer) (old new : List Layer) : Prop :=
  ∃ (found : Layer) (front back rebuilt : List Layer), found.isSame target = true ∧
    old = front ++ found.order ++ back ∧ new = front ++ replacement.order ++ rebuilt ∧
    List.Forall₂ (Rebuilt target replacement) back rebuilt

theorem Exchanged.extend {old new : List Layer} (exchanged : Exchanged target replacement old new)
    (front : List Layer) {back rebuilt : List Layer}
    (isRebuilt : List.Forall₂ (Rebuilt target replacement) back rebuilt) :
    Exchanged target replacement (front ++ old ++ back) (front ++ new ++ rebuilt) := by
  obtain ⟨found, innerFront, innerBack, innerRebuilt, same, rfl, rfl, innerIsRebuilt⟩ := exchanged
  refine ⟨found, front ++ innerFront, innerBack ++ back, innerRebuilt ++ rebuilt, same, ?_, ?_, ?_⟩
  · simp only [List.append_assoc]
  · simp only [List.append_assoc]
  · exact List.rel_append innerIsRebuilt isRebuilt

/-- A replacement that takes place exchanges two segments. -/
theorem exchanged_of_replaceIn? {layer new : Layer} (tidy : ∀ other ∈ layer.order, other.Tidy)
    (replaced : replaceIn? target replacement layer = some new) :
    Exchanged target replacement layer.order new.order := by
  induction layer using treeInduction generalizing new with
  | step layer inductionHypothesis =>
    rcases replaceIn?_cases replaced with
      ⟨same, rfl⟩ | ⟨phase, found, rebuilt, attached, inAll, rfl⟩
    · refine ⟨layer, [], [], [], same, ?_, ?_, .nil⟩
      · rw [List.nil_append, List.append_nil]
      · rw [List.nil_append, List.append_nil]
    · obtain ⟨earlier, child, newChild, later, rfl, inChild, rfl⟩ := replaceInAll?_cases inAll
      have childMember : child ∈ earlier ++ child :: later :=
        List.mem_append_right _ List.mem_cons_self
      have inner := inductionHypothesis phase _ attached child childMember
        (fun other member =>
          tidy other (mem_order_trans member (child_mem_order attached childMember)))
        inChild
      obtain ⟨front, back, oldOrder, newOrder, _⟩ :=
        order_around (tidy layer (self_mem_order layer)) attached
      rw [oldOrder, newOrder]
      exact inner.extend front
        (List.rel_append (forall₂_rebuilt_self back) (.cons (.around attached inChild) .nil))

theorem isSome_replaceInAll? {found : List Layer}
    (oneFound : ∃ child ∈ found, (replaceIn? target replacement child).isSome = true) :
    (replaceInAll? target replacement found).isSome = true := by
  induction found with
  | nil =>
    obtain ⟨child, member, _⟩ := oneFound
    cases member
  | cons layer rest inductionHypothesis =>
    rw [replaceInAll?]
    split
    · rfl
    · next notHere =>
      obtain ⟨child, member, isSome⟩ := oneFound
      rcases List.mem_cons.mp member with rfl | inRest
      · rw [notHere] at isSome
        cases isSome
      · rw [Option.isSome_map]
        exact inductionHypothesis ⟨child, inRest, isSome⟩

/-- A layer of the tree is found. -/
theorem isSome_replaceIn? {layer : Layer} (member : target ∈ layer.order) :
    (replaceIn? target replacement layer).isSome = true := by
  induction layer using treeInduction with
  | step layer inductionHypothesis =>
    rcases mem_order.mp member with inside | rfl
    · obtain ⟨phase, found, attached, child, childMember, inChild⟩ := mem_descendants.mp inside
      have inAll := isSome_replaceInAll? ⟨child, childMember,
        inductionHypothesis phase found attached child childMember inChild⟩
      obtain ⟨stamp, revision, role, before, after⟩ := layer
      rw [replaceIn?]
      split
      · rfl
      · split
        · rfl
        · next notAfter =>
          cases phase with
          | before =>
            obtain rfl : before = some found := attached
            obtain ⟨rebuilt, isRebuilt⟩ := Option.isSome_iff_exists.mp inAll
            rw [replaceInPhase?, isRebuilt]
            rfl
          | after =>
            obtain rfl : after = some found := attached
            rw [replaceInPhase?] at notAfter
            rw [notAfter] at inAll
            cases inAll
    · obtain ⟨stamp, revision, role, before, after⟩ := target
      rw [replaceIn?, if_pos (isSame_self _)]
      rfl

end Search

end Layer

/-! ### In a tree -/

namespace LayerTree

/-- Stamps tell the layers of the tree apart. -/
def Distinct (tree : LayerTree) : Prop :=
  (tree.layers.map Layer.stamp).Nodup

theorem Distinct.eq_of_stamp {tree : LayerTree} (distinct : tree.Distinct) {first second : Layer}
    (firstMember : first ∈ tree.layers) (secondMember : second ∈ tree.layers)
    (same : first.stamp = second.stamp) : first = second :=
  List.inj_on_of_nodup_map distinct firstMember secondMember same

/-- In a tree with distinct stamps, a layer makes way for its replacement and for nothing else. -/
theorem layers_replace {tree : LayerTree} (distinct : tree.Distinct)
    (tidy : ∀ layer ∈ tree.layers, layer.Tidy) {target : Layer} (member : target ∈ tree.layers)
    (replacement : Layer) :
    ∃ front back rebuilt, tree.layers = front ++ target.order ++ back ∧
      (tree.replace target replacement).layers = front ++ replacement.order ++ rebuilt ∧
      List.Forall₂ (Layer.Rebuilt target replacement) back rebuilt := by
  rw [layers_eq] at member tidy
  obtain ⟨new, replaced⟩ := Option.isSome_iff_exists.mp (Layer.isSome_replaceIn? member)
  obtain ⟨found, front, back, rebuilt, same, oldOrder, newOrder, isRebuilt⟩ :=
    Layer.exchanged_of_replaceIn? tidy replaced
  have foundMember : found ∈ tree.root.order := by
    rw [oldOrder]
    exact List.mem_append_left _ (List.mem_append_right _ found.self_mem_order)
  obtain rfl : found = target := distinct.eq_of_stamp (by rwa [layers_eq]) (by rwa [layers_eq])
    (Layer.stamp_eq_of_isSame same)
  refine ⟨front, back, rebuilt, by rw [layers_eq, oldOrder], ?_, isRebuilt⟩
  rw [layers_eq, replace, replaced]
  exact newOrder

end LayerTree

end LayeredConfig
