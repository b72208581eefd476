/-
This file says what a tree holds of the readings on the way to it.

What a reading loads becomes the children of the layer that was read, in the phase of the reading:
those of the resource that was read last come first in the order of strength, and those of one
resource come in the order of its bundle. The layer and these children stay to the end. A resource
of which a source was loaded is not loaded again, so the tree has no layers of it but these.

So no two readings are of the same layer in the same phase.
-/

import LayeredConfig.Proofs.Resolution.Reach

namespace LayeredConfig

/-- The layer that is read, and the phase in which it is. -/
def Reading.place (reading : Reading) : Nat × Phase :=
  (reading.layer.stamp, reading.phase)

namespace LayerTree

/-! ### What a tree holds -/

/-- An entry of the tree and marks of its children, as one reading left them. -/
structure HeldAs (repository : Repository) (tree : LayerTree) (reading : Reading) (parent : Entry)
    (marks : List Mark) : Prop where
  inTree : parent ∈ tree.entries
  stamp : parent.stamp = reading.layer.stamp
  imports : parent.role.imports = reading.layer.imports
  attached : parent.children reading.phase = some (marks.map Mark.stamp).reverse
  finds : marks.map Mark.find = (reading.loads repository).reverse.flatMap (findsOf reading.phase)
  marked : ∀ mark ∈ marks, mark ∈ tree.marks
  /-- The tree has no other marks of a resource of which a source was loaded. -/
  only : ∀ load ∈ reading.loads repository, load.2.sources ≠ [] →
    ∀ mark ∈ tree.marks, mark.isOf load.1.id = true → mark ∈ marks

/-- The tree holds what a reading loaded, as the children of the layer that was read. -/
def Holds (repository : Repository) (tree : LayerTree) (reading : Reading) : Prop :=
  ∃ parent marks, tree.HeldAs repository reading parent marks

/-- The entry is that of the layer of the tree that was read. -/
theorem HeldAs.parent_eq {known : Option Profiles} {repository : Repository} {tree : LayerTree}
    {reading : Reading} {parent : Entry} {marks : List Mark} (sound : tree.Sound known)
    (held : tree.HeldAs repository reading parent marks) {layer : Layer}
    (member : layer ∈ tree.layers) (sameStamp : reading.layer.stamp = layer.stamp) :
    parent = layer.entry :=
  List.inj_on_of_nodup_map sound.distinct held.inTree (entry_mem member)
    (held.stamp.trans sameStamp)

section Stepped

variable {repository : Repository} {known : Option Profiles} {tree next : LayerTree} {layer : Layer}

/-- To read the imports of a layer is a reading that the next tree holds. -/
theorem Stepped.holds_new {gathered : List (Resource × Bundle)} (ready : layer.role.isFound = false)
    (stepped : Stepped (Phase.ofKnown known) tree next layer gathered)
    (isRead : Reading.loads repository ⟨layer, known, tree.loaded⟩ = gathered)
    (fresh : ∀ load ∈ gathered, load.1.id ∉ tree.loaded) :
    next.Holds repository ⟨layer, known, tree.loaded⟩ := by
  have marks (mark : Mark) : mark ∈ next.marks ↔
      mark ∈ tree.marks ∨ mark ∈ tree.newMarks (Phase.ofKnown known) gathered := stepped.mem_marks
  cases stepped with
  | bound role =>
    rw [role] at ready
    cases ready
  | attached _ _ edited _ =>
    refine ⟨_, tree.newMarks (Phase.ofKnown known) gathered, edited.after_mem, rfl,
      Role.imports_opened _, ?_, ?_, fun mark isNew => (marks mark).mpr (Or.inr isNew), ?_⟩
    · rw [Entry.children_attach, ← stamps_newMarks]
      exact if_pos rfl
    · rw [isRead]
      exact finds_newMarks
    · intro load isLoad _ mark inNext isOf
      refine ((marks mark).mp inNext).resolve_left fun isOld => ?_
      exact fresh load (isRead ▸ isLoad) (LayerTree.mem_loaded.mpr ⟨mark, isOld, isOf⟩)

/-- What the tree holds, it holds after a step that loads nothing of the resources in it. -/
theorem Stepped.holds_old {phase : Phase} {gathered : List (Resource × Bundle)} {reading : Reading}
    (sound : tree.Sound known) (stepped : Stepped phase tree next layer gathered)
    (holds : tree.Holds repository reading)
    (others : ∀ load ∈ reading.loads repository, load.2.sources ≠ [] →
      ∀ other ∈ gathered, other.1.id ≠ load.1.id) : next.Holds repository reading := by
  obtain ⟨parent, marks, held⟩ := holds
  obtain ⟨later, isLater, sameStamp, sameImports, attached⟩ :=
    stepped.keeps_parent sound held.inTree held.attached
  refine ⟨later, marks, isLater, sameStamp.trans held.stamp, sameImports.trans held.imports,
    attached, held.finds,
    fun mark isMark => stepped.mem_marks.mpr (Or.inl (held.marked mark isMark)), ?_⟩
  intro load isLoad notEmpty mark inNext isOf
  rcases stepped.mem_marks.mp inNext with isOld | isNew
  · exact held.only load isLoad notEmpty mark isOld isOf
  · obtain ⟨other, isOther, isFind⟩ := mem_newMarks isNew
    exact absurd ((isOf_of_find isFind _).mp isOf) (others load isLoad notEmpty other isOther)

end Stepped

end LayerTree

namespace Configuration

open LayerTree

variable {repository : Repository} {initial : List Source} {request : ProfileRequest}
  {known : Option Profiles} {tree : LayerTree} {layer : Layer} {readings : List Reading}

/-! ### Along a resolution -/

/-- Every tree holds all the readings on the way to it. -/
theorem Reads.holds (reads : Reads repository initial request known tree readings) :
    ∀ reading ∈ readings, tree.Holds repository reading := by
  induction reads with
  | start =>
    intro reading member
    cases member
  | @step known tree next layer readings reads selected worked inductionHypothesis =>
    have stepped := reads.reaches.stepped selected worked
    intro reading member
    rcases List.mem_append.mp member with isOld | isNew
    · -- A source of such a resource is in the tree already, so the step loads none.
      refine stepped.holds_old reads.reaches.sound (inductionHypothesis reading isOld) ?_
      intro load isLoad notEmpty other isOther same
      have loaded : load ∈ readings.flatMap (Reading.loads repository) :=
        List.mem_flatMap.mpr ⟨reading, isOld, isLoad⟩
      exact work_fresh other isOther
        (reads.reaches.mem_loaded.mpr ⟨load, loaded, same.symm, notEmpty⟩)
    · obtain ⟨ready, rfl⟩ := mem_readingsOf.mp isNew
      exact stepped.holds_new ready ((loads_work_of_ready ready).trans loads_gatherFor).symm
        work_fresh
  | learn _ _ _ inductionHypothesis => exact inductionHypothesis

/-! ### One reading at a place -/

/-- The imports that a reading takes from a layer were never read in that phase before. -/
theorem Reads.place_fresh (reads : Reads repository initial request known tree readings)
    (selected : tree.next? known = some layer) (ready : layer.role.isFound = false) :
    ∀ reading ∈ readings, reading.layer.stamp = layer.stamp →
      reading.phase ≠ Phase.ofKnown known := by
  intro reading member sameStamp samePhase
  obtain ⟨parent, marks, held⟩ := reads.holds reading member
  exact not_attached_of_next reads.reaches.sound selected ready
    ⟨parent, held.inTree, held.stamp.trans sameStamp, _, samePhase ▸ held.attached⟩

/-- No layer is read twice in a phase. -/
theorem Reads.distinct (reads : Reads repository initial request known tree readings) :
    (readings.map Reading.place).Nodup := by
  induction reads with
  | start => exact List.nodup_nil
  | @step known tree next layer readings reads selected worked inductionHypothesis =>
    cases isFound : layer.role.isFound with
    | true => rwa [readingsOf_of_found isFound, List.append_nil]
    | false =>
      rw [readingsOf_of_ready isFound, List.map_append, List.nodup_append]
      refine ⟨inductionHypothesis, List.nodup_singleton _, ?_⟩
      intro first isFirst second isSecond same
      obtain ⟨reading, member, rfl⟩ := List.mem_map.mp isFirst
      rw [List.mem_singleton.mp isSecond, Reading.place, Prod.mk.injEq] at same
      exact reads.place_fresh selected isFound reading member same.1 same.2
  | learn _ _ _ inductionHypothesis => exact inductionHypothesis

theorem Reads.eq_of_place (reads : Reads repository initial request known tree readings)
    {first second : Reading} (isFirst : first ∈ readings) (isSecond : second ∈ readings)
    (sameStamp : first.layer.stamp = second.layer.stamp) (samePhase : first.phase = second.phase) :
    first = second :=
  List.inj_on_of_nodup_map reads.distinct isFirst isSecond (Prod.ext sameStamp samePhase)

end Configuration

end LayeredConfig
