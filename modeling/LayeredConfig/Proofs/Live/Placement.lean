/-
This file says where the sources of a load stand in the tree that a resolution ends with.

A step attaches what it loads to one layer, all of it by one phase: the sources of each bundle as
neighbours, the strongest last. No later step moves or removes a layer, and nothing of the same
identity is attached again. So the sources of a load make one block of siblings to the end, and as
children are visited last to first, the block comes in the order of its sources. This is so whatever
the finders and readers answer each time, also where an identity comes without sources at first.
-/

import LayeredConfig.Proofs.Live.SingleReading

namespace LayeredConfig

namespace LayerTree

/-! ### Blocks of marks -/

/-- The sources of a load are marked as one block of children that a phase attached to one layer,
and the tree has no other marks of the identity. -/
def Keeps (tree : LayerTree) (load : Resource × Bundle) : Prop :=
  ∃ parent ∈ tree.entries, ∃ phase front block back,
    parent.children phase = some (front ++ (block.map Mark.stamp).reverse ++ back) ∧
      block.map Mark.find = findsOf phase load ∧ tree.marks.filter (Mark.isOf load.1.id) = block

section Stepped

variable {known : Option Profiles} {phase : Phase} {tree next : LayerTree} {layer : Layer}
  {gathered : List (Resource × Bundle)} {load : Resource × Bundle}

theorem filter_marks_of_not_loaded {id : String} (fresh : id ∉ tree.loaded) :
    tree.marks.filter (Mark.isOf id) = [] :=
  List.filter_eq_nil_iff.mpr fun mark member isOf => fresh (mem_loaded.mpr ⟨mark, member, isOf⟩)

/-- What a step loads is kept as it was loaded. -/
theorem Stepped.keeps_new (stepped : Stepped phase tree next layer gathered)
    (distinct : (gathered.map (·.1.id)).Nodup) (member : load ∈ gathered)
    (fresh : load.1.id ∉ tree.loaded) : next.Keeps load := by
  obtain ⟨front, back, old, new⟩ := stepped.marks
  obtain ⟨earlier, block, later, split, finds, only⟩ := newMarks_of_load member distinct
  have noOthers := filter_marks_of_not_loaded fresh
  rw [old, List.filter_append, List.append_eq_nil_iff] at noOthers
  have filtered : next.marks.filter (Mark.isOf load.1.id) = block := by
    rw [new, List.filter_append, List.filter_append, noOthers.1, noOthers.2, only, List.nil_append,
      List.append_nil]
  cases stepped with
  | bound => cases member
  | attached _ _ edited _ =>
    refine ⟨_, edited.after_mem, phase, (later.map Mark.stamp).reverse, block,
      (earlier.map Mark.stamp).reverse, ?_, finds, filtered⟩
    rw [Entry.children_attach, if_pos rfl, stamps_newMarks, split]
    simp only [List.map_append, List.reverse_append, List.append_assoc]

/-- What the tree keeps, it keeps through a step that loads nothing of that identity. -/
theorem Stepped.keeps_old (sound : tree.Sound known)
    (stepped : Stepped phase tree next layer gathered) (keeps : tree.Keeps load)
    (others : ∀ other ∈ gathered, other.1.id ≠ load.1.id) : next.Keeps load := by
  obtain ⟨parent, isParent, inPhase, front, block, back, attached, finds, only⟩ := keeps
  obtain ⟨later, isLater, _, stillAttached⟩ := stepped.keeps_children sound isParent attached
  obtain ⟨before, after, old, new⟩ := stepped.marks
  have nothingNew : (tree.newMarks phase gathered).filter (Mark.isOf load.1.id) = [] :=
    List.filter_eq_nil_iff.mpr fun mark isNew isOf => by
      obtain ⟨other, isOther, isFind⟩ := mem_newMarks isNew
      exact others other isOther ((isOf_of_find isFind _).mp isOf)
  refine ⟨later, isLater, inPhase, front, block, back, stillAttached, finds, ?_⟩
  rw [new, List.filter_append, List.filter_append, nothingNew, List.append_nil,
    ← List.filter_append, ← old, only]

end Stepped

end LayerTree

/-! ### Along a resolution -/

namespace LiveRepository

open LayerTree Expansion

variable {live : LiveRepository} {initial : List Source} {request : ProfileRequest}
  {known : Option Profiles} {tree : LayerTree} {expansions : List Expansion}

/-- Every tree keeps all that was loaded on the way to it. -/
theorem Comes.keeps (comes : live.Comes initial request known tree expansions) :
    ∀ load ∈ Call.loadsOf (callsOf expansions), load.2.sources ≠ [] → tree.Keeps load := by
  induction comes with
  | start =>
    intro load member
    cases member
  | step comes selected worked inductionHypothesis =>
    obtain ⟨gathered, stepped, recorded, distinct, fresh⟩ := comes.gathers selected worked
    intro load member notEmpty
    rw [recorded] at member
    rcases List.mem_append.mp member with isOld | isNew
    · -- A source of this identity is in the tree already, so the step loads none.
      refine stepped.keeps_old comes.sound (inductionHypothesis load isOld notEmpty) ?_
      intro other isOther same
      exact fresh other isOther (comes.mem_loaded.mpr ⟨load, isOld, same.symm, notEmpty⟩)
    · exact stepped.keeps_new distinct isNew (fresh load isNew)
  | learn _ _ _ inductionHypothesis => exact inductionHypothesis

/-- Every mark of a found layer comes from a load. -/
theorem Comes.find_mem (comes : live.Comes initial request known tree expansions) :
    ∀ mark ∈ tree.marks, mark.origin? ≠ none →
      ∃ load ∈ Call.loadsOf (callsOf expansions), ∃ phase, mark.find ∈ findsOf phase load := by
  induction comes with
  | start bound =>
    intro mark member isFound
    exact absurd (origin_start bound member) isFound
  | step comes selected worked inductionHypothesis =>
    obtain ⟨gathered, stepped, recorded, _⟩ := comes.gathers selected worked
    rw [recorded]
    intro mark member isFound
    rcases stepped.mem_marks.mp member with isOld | isNew
    · obtain ⟨load, isLoad, inPhase⟩ := inductionHypothesis mark isOld isFound
      exact ⟨load, List.mem_append_left _ isLoad, inPhase⟩
    · obtain ⟨load, isLoad, isFind⟩ := mem_newMarks isNew
      exact ⟨load, List.mem_append_right _ isLoad, _, isFind⟩
  | learn _ _ _ inductionHypothesis => exact inductionHypothesis

end LiveRepository

/-! ### Blocks of layers -/

namespace LayerTree

/-- The layers of a block hold the sources of a load, and the tree holds them nowhere else. -/
structure Placed (tree : LayerTree) (load : Resource × Bundle) (block : List Layer) : Prop where
  /-- There is one layer for each source, in the order of the sources. -/
  sources : block.map Layer.source? = load.2.sources.map some
  /-- In the order of the tree, these are all the layers of the identity. -/
  only : tree.layers.filter (fun layer => layer.resource?.map (·.id) == some load.1.id) = block
  /-- One phase attached them to one layer, next to each other, the strongest last. -/
  siblings : ∃ parent ∈ tree.layers, ∃ phase front back,
    parent.children phase = some (front ++ block.reverse ++ back) ∧
      ∀ layer ∈ block, layer.origin? = some ⟨load.1, load.2.profileSpecific, phase⟩
  /-- In the order of the tree, nothing comes between two of them but what is below the second. -/
  together : ∃ front back,
    tree.layers = front ++ (block.flatMap fun layer => layer.descendants ++ [layer]) ++ back

/-- Two lists from one whole are the same if they are told apart by what tells the whole apart. -/
theorem eq_of_map_eq {Item Key : Type} {key : Item → Key} {whole first second : List Item}
    (distinct : (whole.map key).Nodup) (firstMember : ∀ item ∈ first, item ∈ whole)
    (secondMember : ∀ item ∈ second, item ∈ whole) (same : first.map key = second.map key) :
    first = second := by
  induction first generalizing second with
  | nil => exact (List.map_eq_nil_iff.mp same.symm).symm
  | cons item rest inductionHypothesis =>
    obtain ⟨other, others, rfl, sameKey, sameRest⟩ := List.map_eq_cons_iff.mp same.symm
    rw [inductionHypothesis
      (fun inRest member => firstMember inRest (List.mem_cons_of_mem _ member))
      (fun inRest member => secondMember inRest (List.mem_cons_of_mem _ member)) sameRest.symm,
      List.inj_on_of_nodup_map distinct (firstMember _ List.mem_cons_self)
        (secondMember _ List.mem_cons_self) sameKey.symm]

theorem isOf_mark (id : String) :
    (fun layer : Layer => layer.resource?.map (·.id) == some id) = Mark.isOf id ∘ Layer.mark := by
  funext layer
  show ((layer.role.origin?.map (·.resource)).map (·.id) == some id) =
    (layer.role.origin?.map (·.resource.id) == some id)
  rw [Option.map_map]
  rfl

/-- What the tree keeps of a load is a block of layers. -/
theorem Keeps.placed {known : Option Profiles} {tree : LayerTree} {load : Resource × Bundle}
    (sound : tree.Sound known) (keeps : tree.Keeps load) : ∃ block, tree.Placed load block := by
  obtain ⟨_, isEntry, phase, front, marked, back, attached, finds, only⟩ := keeps
  obtain ⟨parent, isParent, rfl⟩ := List.mem_map.mp isEntry
  obtain ⟨found, isFound, stamps⟩ := Option.map_eq_some_iff.mp attached
  obtain ⟨most, later, rfl, mostStamps, _⟩ := List.map_eq_append_iff.mp stamps
  obtain ⟨earlier, middle, rfl, _, middleStamps⟩ := List.map_eq_append_iff.mp mostStamps
  -- The tree has the layers of the identity in the order of the block, and the children of the
  -- block in reverse. Both have the stamps of the same marks, so both are the same layers.
  have inTree {child : Layer} (member : child ∈ middle) : child ∈ tree.layers :=
    child_mem_layers isParent isFound (List.mem_append_left _ (List.mem_append_right _ member))
  have marks : (tree.layers.filter (Mark.isOf load.1.id ∘ Layer.mark)).map Layer.mark = marked := by
    rw [← List.filter_map, ← marks_eq, only]
  have filtered : tree.layers.filter (Mark.isOf load.1.id ∘ Layer.mark) = middle.reverse := by
    refine eq_of_map_eq (distinct_iff.mp sound.distinct)
      (fun layer member => (List.mem_filter.mp member).1)
      (fun layer member => inTree (List.mem_reverse.mp member)) ?_
    rw [List.map_reverse, middleStamps, List.reverse_reverse, ← marks, List.map_map]
    rfl
  rw [filtered] at marks
  rw [← marks, List.map_map] at finds
  refine ⟨middle.reverse, ?_, ?_, ?_, ?_⟩
  · have := congrArg (List.map Prod.snd) finds
    rw [List.map_map, findsOf, List.map_map] at this
    exact this
  · rw [isOf_mark, filtered]
  · refine ⟨parent, isParent, phase, earlier, later, by rw [List.reverse_reverse, isFound], ?_⟩
    intro layer member
    exact origin_of_find (finds ▸ List.mem_map_of_mem (f := Mark.find ∘ Layer.mark) member)
  · obtain ⟨before, after, order⟩ := layers_split isParent isFound
    refine ⟨before ++ Layer.orderAll later, Layer.orderAll earlier ++ after, ?_⟩
    rw [order, Layer.orderAll_append, Layer.orderAll_append, Layer.orderAll_eq middle,
      funext Layer.order_eq]
    simp only [List.append_assoc]

end LayerTree

namespace LiveRepository

open LayerTree Expansion

/-- At the end of a resolution, the sources of every load that had any stand in the tree as one
block, and every found layer stands in the block of a load. -/
theorem placed_of_resolve {live : LiveRepository} {initial : List Source}
    {request : ProfileRequest} {configuration : Configuration} {calls : List Call}
    (succeeded : live.resolve initial request [] = (.ok configuration, calls)) :
    (∀ load ∈ Call.loadsOf calls, load.2.sources ≠ [] →
      ∃ block, configuration.tree.Placed load block) ∧
    ∀ layer ∈ configuration.tree.layers, layer.origin? ≠ none →
      ∃ load ∈ Call.loadsOf calls, ∃ block,
        configuration.tree.Placed load block ∧ layer ∈ block := by
  obtain ⟨⟨expansions, comes, rfl⟩, _⟩ :=
    (leaves_resolve live initial request).of_eq_ok succeeded
  refine ⟨fun load member notEmpty => (comes.keeps load member notEmpty).placed comes.sound, ?_⟩
  intro layer inTree isFound
  obtain ⟨load, member, phase, isFind⟩ := comes.find_mem layer.mark (mark_mem inTree) isFound
  obtain ⟨block, placed⟩ :=
    (comes.keeps load member (sources_ne_nil_of_find isFind)).placed comes.sound
  refine ⟨load, member, block, placed, ?_⟩
  rw [← placed.only, isOf_mark]
  exact List.mem_filter.mpr ⟨inTree, (isOf_of_find isFind _).mpr rfl⟩

/-- A bundle that has no sources when it is read for the first time makes one block later. -/
theorem placed_of_resolve_fillingTable :
    ∃ configuration calls load block,
      fillingTable.resolve importingTwice .unset [] = (.ok configuration, calls) ∧
        (Call.loadsOf calls).map (fun load => (load.1.id, load.2.sources.length)) =
          [("a", 0), ("b", 2), ("a", 2)] ∧
        load ∈ Call.loadsOf calls ∧ load.1.id = "a" ∧
        configuration.tree.Placed load block ∧ block.length = 2 := by
  have isOk : (fillingTable.resolve importingTwice .unset []).1.isOk = true := by
    decide +kernel
  have loads : (Call.loadsOf (fillingTable.resolve importingTwice .unset []).2).map
      (fun load => (load.1.id, load.2.sources.length)) = [("a", 0), ("b", 2), ("a", 2)] := by
    decide +kernel
  obtain ⟨configuration, outcome⟩ := exists_ok_of_isOk isOk
  have succeeded : fillingTable.resolve importingTwice .unset [] =
      (.ok configuration, (fillingTable.resolve importingTwice .unset []).2) := Prod.ext outcome rfl
  have again : ("a", 2) ∈ (Call.loadsOf (fillingTable.resolve importingTwice .unset []).2).map
      (fun load => (load.1.id, load.2.sources.length)) := loads ▸ by simp
  obtain ⟨load, member, same⟩ := List.mem_map.mp again
  obtain ⟨id, length⟩ := Prod.mk.inj same
  obtain ⟨block, placed⟩ := (placed_of_resolve succeeded).1 load member
    (List.ne_nil_of_length_pos (length ▸ Nat.two_pos))
  have sameLength := congrArg List.length placed.sources
  rw [List.length_map, List.length_map, length] at sameLength
  exact ⟨configuration, _, load, block, succeeded, loads, member, id, placed, sameLength⟩

end LiveRepository

end LayeredConfig
