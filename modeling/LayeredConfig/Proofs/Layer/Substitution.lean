/-
This file says what a tree is after one of its layers was replaced, in a tree in which no state of a
layer occurs twice.

The order of the tree is cut at the segment of the target. What stands in front of it is kept. What
stands behind it is kept, too, except for the layers that the target is below: each of these is
rebuilt, with its stamp and its role, around the child on the way to the target. The search looks
into the children of a layer in another order than the traversal emits them; that it finds the
target nevertheless, and nothing else, is since there is only one layer to be found. A rebuilt layer
keeps its role since only closed layers change theirs when they get children, and those have none
that could make way.
-/

import LayeredConfig.Proofs.Layer.Replacement

namespace LayeredConfig

namespace Layer

/-- What tells one state of a layer from all others. -/
def identity (layer : Layer) : Nat × Nat :=
  (layer.stamp, layer.revision)

theorem isSame_iff {layer other : Layer} :
    layer.isSame other = true ↔ layer.identity = other.identity := by
  rw [isSame, Bool.and_eq_true, beq_iff_eq, beq_iff_eq, identity, identity, Prod.mk.injEq]

/-- One layer is another one with a child of it substituted, and otherwise the same. -/
structure Substitutes (child newChild old new : Layer) : Prop where
  stamp : new.stamp = old.stamp
  role : new.role = old.role
  children : ∃ phase earlier later, old.children phase = some (earlier ++ child :: later) ∧
    new.children phase = some (earlier ++ newChild :: later) ∧
    ∀ other, other ≠ phase → new.children other = old.children other

/-- One layer is another one with a layer below it replaced, and those between them rebuilt. -/
inductive Surrounds (target replacement : Layer) : Layer → Layer → Prop
  | parent {old new : Layer} (substitutes : Substitutes target replacement old new) :
    Surrounds target replacement old new
  | ancestor {child newChild old new : Layer} (inner : Surrounds target replacement child newChild)
    (substitutes : Substitutes child newChild old new) : Surrounds target replacement old new

/-- What becomes of a layer that stands behind the target. -/
structure Follows (target replacement old new : Layer) : Prop where
  surrounds : target ∈ old.descendants → Surrounds target replacement old new
  kept : target ∉ old.descendants → new = old

section Once

variable {target replacement layer new : Layer}

/-- A layer with children keeps its role when one of them is substituted. -/
theorem substitutes_withChildren (tidy : layer.Tidy) {phase : Phase} {earlier later : List Layer}
    {child : Layer} (attached : layer.children phase = some (earlier ++ child :: later))
    (newChild : Layer) :
    Substitutes child newChild layer
      (layer.withChildren phase (earlier ++ newChild :: later)) := by
  have isOpen := isOpen_of_attached tidy attached
  have children := children_withChildren tidy (Role.isFound_of_open isOpen) phase
  refine ⟨stamp_withChildren _ _ _, ?_, phase, earlier, later, attached, ?_, fun other different => ?_⟩
  · rw [role_withChildren, Role.opened_of_open isOpen]
  · rw [children, if_pos rfl]
  · rw [children, if_neg different]

/-- A replacement takes place only where the search meets the target. -/
theorem exists_same_of_replaceIn? (replaced : replaceIn? target replacement layer = some new) :
    ∃ found ∈ layer.order, found.isSame target = true := by
  induction layer using treeInduction generalizing new with
  | step layer inductionHypothesis =>
    rcases replaceIn?_cases replaced with ⟨same, _⟩ | ⟨phase, found, rebuilt, attached, inAll, _⟩
    · exact ⟨layer, self_mem_order layer, same⟩
    · obtain ⟨earlier, child, newChild, later, rfl, inChild, _⟩ := replaceInAll?_cases inAll
      have isChild : child ∈ earlier ++ child :: later :=
        List.mem_append_right _ List.mem_cons_self
      obtain ⟨other, member, same⟩ :=
        inductionHypothesis phase _ attached child isChild inChild
      exact ⟨other, mem_order_trans member (child_mem_order attached isChild), same⟩

variable (once : (layer.order.map identity).Nodup)

include once

theorem eq_of_isSame {first second : Layer} (firstMember : first ∈ layer.order)
    (secondMember : second ∈ layer.order) (same : first.isSame second = true) : first = second :=
  List.inj_on_of_nodup_map once firstMember secondMember (isSame_iff.mp same)

/-- A layer behind the target and in front of a layer around it is not around the target itself. -/
theorem not_mem_of_behind {child : Layer} {front back : List Layer}
    (isOrder : layer.order = front ++ child.order ++ (back ++ [layer]))
    (closed : ∀ other ∈ back, ∀ below ∈ other.order, below ∈ back) (inChild : target ∈ child.order)
    {other : Layer} (member : other ∈ back) : target ∉ other.descendants := by
  intro isBelow
  have distinct := once.of_map
  rw [isOrder, List.append_assoc, List.nodup_append] at distinct
  obtain ⟨_, _, apart⟩ := List.nodup_append.mp distinct.2.1
  have inBack := closed other member target (mem_order.mpr (Or.inl isBelow))
  exact apart target inChild target (List.mem_append_left _ inBack) rfl

/-- The target makes way for the replacement, and the layers around it are rebuilt. -/
theorem replaced_in_order (tidy : ∀ other ∈ layer.order, other.Tidy)
    (member : target ∈ layer.order) (replaced : replaceIn? target replacement layer = some new) :
    (layer = target ∧ new = replacement ∨ Surrounds target replacement layer new) ∧
      ∃ front back rebuilt, layer.order = front ++ target.order ++ back ∧
        new.order = front ++ replacement.order ++ rebuilt ∧
        List.Forall₂ (Follows target replacement) back rebuilt := by
  induction layer using treeInduction generalizing new with
  | step layer inductionHypothesis =>
    rcases replaceIn?_cases replaced with
      ⟨same, rfl⟩ | ⟨phase, found, rebuilt, attached, inAll, rfl⟩
    · obtain rfl := eq_of_isSame once (self_mem_order layer) member same
      refine ⟨Or.inl ⟨rfl, rfl⟩, [], [], [], ?_, ?_, .nil⟩
      · rw [List.nil_append, List.append_nil]
      · rw [List.nil_append, List.append_nil]
    obtain ⟨earlier, child, newChild, later, rfl, inChild, rfl⟩ := replaceInAll?_cases inAll
    have isChild : child ∈ earlier ++ child :: later :=
      List.mem_append_right _ List.mem_cons_self
    have within {other : Layer} (isBelow : other ∈ child.order) : other ∈ layer.order :=
      mem_order_trans isBelow (child_mem_order attached isChild)
    obtain ⟨front, back, oldOrder, newOrder, closed⟩ :=
      order_around (tidy layer (self_mem_order layer)) attached
    have childOnce : (child.order.map identity).Nodup := by
      refine once.sublist (List.Sublist.map _ ?_)
      rw [oldOrder]
      exact (List.sublist_append_right _ _).trans (List.sublist_append_left _ _)
    obtain ⟨other, isOther, same⟩ := exists_same_of_replaceIn? inChild
    obtain rfl := eq_of_isSame once (within isOther) member same
    obtain ⟨outcome, innerFront, innerBack, innerRebuilt, oldChild, newChildOrder, follows⟩ :=
      inductionHypothesis phase _ attached child isChild childOnce
        (fun other isBelow => tidy other (within isBelow)) isOther inChild
    have substitutes :=
      substitutes_withChildren (tidy layer (self_mem_order layer)) attached newChild
    have surrounds : Surrounds other replacement layer
        (layer.withChildren phase (earlier ++ newChild :: later)) := by
      rcases outcome with ⟨rfl, rfl⟩ | inner
      · exact .parent substitutes
      · exact .ancestor inner substitutes
    have isBelow : other ∈ layer.descendants :=
      mem_descendants.mpr ⟨phase, _, attached, child, isChild, isOther⟩
    refine ⟨Or.inr surrounds, front ++ innerFront, innerBack ++ (back ++ [layer]),
      innerRebuilt ++ (back ++ [layer.withChildren phase (earlier ++ newChild :: later)]), ?_, ?_,
      ?_⟩
    · rw [oldOrder, oldChild]
      simp only [List.append_assoc]
    · rw [newOrder, newChildOrder]
      simp only [List.append_assoc]
    · refine List.rel_append follows (List.rel_append (List.forall₂_same.mpr fun sibling isSibling =>
        ?_) (.cons ⟨fun _ => surrounds, fun notBelow => absurd isBelow notBelow⟩ .nil))
      have notBelow := not_mem_of_behind once oldOrder closed isOther isSibling
      exact ⟨fun isBelow => absurd isBelow notBelow, fun _ => rfl⟩

end Once

end Layer

namespace LayerTree

/-- No state of a layer occurs twice in the tree. -/
def Once (tree : LayerTree) : Prop :=
  (tree.layers.map Layer.identity).Nodup

/-- There is one way to cut the order of a tree at the segment of a layer. -/
theorem Once.eq_of_split {tree : LayerTree} (once : tree.Once) {target : Layer}
    {front back otherFront otherBack : List Layer}
    (split : tree.layers = front ++ target.order ++ back)
    (otherSplit : tree.layers = otherFront ++ target.order ++ otherBack) :
    front = otherFront ∧ back = otherBack := by
  have cut (front back : List Layer) :
      front ++ target.order ++ back = (front ++ target.descendants) ++ target :: back := by
    rw [Layer.order_eq]
    simp only [List.append_assoc, List.singleton_append]
  rw [cut] at split otherSplit
  have distinct := once.of_map
  rw [split, List.nodup_middle, List.nodup_cons, List.mem_append, not_or] at distinct
  obtain ⟨sameFront, _, sameBack⟩ :=
    (List.append_cons_inj_of_notMem distinct.1.1 distinct.1.2).mp (split.symm.trans otherSplit)
  exact ⟨List.append_cancel_right sameFront, sameBack⟩

/-- A layer of the tree makes way for another one. Where its segment was, there is that of the
replacement; the layers in front of it are kept, and of those behind it the ones that it is below
are rebuilt around it. A layer that is not in the tree changes nothing. -/
theorem replaced_in_place (tree : LayerTree) (once : tree.Once)
    (tidy : ∀ layer ∈ tree.layers, layer.Tidy) (target replacement : Layer) :
    (target ∈ tree.layers → ∀ front back, tree.layers = front ++ target.order ++ back →
      ∃ rebuilt, (tree.replace target replacement).layers = front ++ replacement.order ++ rebuilt ∧
        List.Forall₂ (Layer.Follows target replacement) back rebuilt) ∧
    ((∀ layer ∈ tree.layers, layer.isSame target = false) →
      tree.replace target replacement = tree) := by
  constructor
  · intro member front back split
    have inOrder : target ∈ tree.root.order := by rwa [← layers_eq]
    obtain ⟨new, replaced⟩ := Option.isSome_iff_exists.mp (Layer.isSome_replaceIn? inOrder)
    have onceInOrder : (tree.root.order.map Layer.identity).Nodup := by rwa [← layers_eq]
    have tidyInOrder : ∀ layer ∈ tree.root.order, layer.Tidy := by rwa [← layers_eq]
    obtain ⟨_, ownFront, ownBack, rebuilt, oldOrder, newOrder, follows⟩ :=
      Layer.replaced_in_order onceInOrder tidyInOrder inOrder replaced
    rw [← layers_eq] at oldOrder
    obtain ⟨rfl, rfl⟩ := once.eq_of_split split oldOrder
    refine ⟨rebuilt, ?_, follows⟩
    rw [layers_eq, replace, replaced]
    exact newOrder
  · intro absent
    cases replaced : Layer.replaceIn? target replacement tree.root with
    | none => rw [replace, replaced]; rfl
    | some new =>
      obtain ⟨found, member, same⟩ := Layer.exists_same_of_replaceIn? replaced
      rw [← layers_eq] at member
      rw [absent found member] at same
      cases same

/-! ### A tree with layers around the target -/

namespace Branched

def origin (id : String) (phase : Phase) : Origin :=
  ⟨⟨⟨id, false⟩, id, none⟩, false, phase⟩

def late : Layer :=
  .node 3 0 (.found (origin "late" .after) (.ofPairs "late" [])) none none

def leaf : Layer :=
  .node 4 0 (.found (origin "leaf" .before) (.ofPairs "leaf" [])) none none

def middle : Layer :=
  .node 2 1 (.expanded (origin "middle" .before) (.ofPairs "middle" []) ⟨[⟨"leaf", false⟩], none⟩)
    (some [leaf]) none

/-- A layer with a child of each phase. -/
def given : Layer :=
  .node 1 2 (.initial (.ofPairs "given" []) [⟨"middle", false⟩]) (some [middle]) (some [late])

def tree : LayerTree :=
  ⟨.node 0 3 .root (some [given]) none, 5⟩

end Branched

open Branched in
/-- The strongest layer is kept when one below a weaker layer makes way, and the three layers that
this one is below are rebuilt. -/
theorem replaced_in_place_branched :
    Branched.tree.Once ∧ (∀ layer ∈ Branched.tree.layers, layer.Tidy) ∧
    leaf ∈ Branched.tree.layers ∧
    Branched.tree.layers = [late] ++ leaf.order ++ [middle, given, Branched.tree.root] ∧
    (∃ rebuilt, (Branched.tree.replace leaf given).layers = [late] ++ given.order ++ rebuilt ∧
      List.Forall₂ (Layer.Follows leaf given) [middle, given, Branched.tree.root] rebuilt) ∧
    Branched.tree.replace (leaf.withRole .root) given = Branched.tree := by
  have split : Branched.tree.layers = [late] ++ leaf.order ++
      [middle, given, Branched.tree.root] := by
    rw [layers_eq]
    rfl
  have once : Branched.tree.Once := by
    rw [Once, split]
    decide
  have tidy : ∀ layer ∈ Branched.tree.layers, layer.Tidy := by
    rw [split]
    intro layer member closed phase
    simp only [leaf, Layer.order, Layer.orderPhase, List.mem_append, List.mem_cons,
      List.not_mem_nil, or_false, List.nil_append] at member
    rcases member with (rfl | rfl) | rfl | rfl | rfl
    · cases phase <;> rfl
    · cases phase <;> rfl
    · cases closed
    · cases closed
    · cases closed
  have inPlace := replaced_in_place Branched.tree once tidy leaf given
  have member : leaf ∈ Branched.tree.layers := by
    rw [split]
    exact List.mem_append_left _ (List.mem_append_right _ leaf.self_mem_order)
  refine ⟨once, tidy, member, split, inPlace.1 member _ _ split, ?_⟩
  refine (replaced_in_place Branched.tree once tidy (leaf.withRole .root) given).2 ?_
  rw [split]
  decide

end LayerTree

end LayeredConfig
