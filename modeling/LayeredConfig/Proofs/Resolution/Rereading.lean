/-
This file says what reading the imports of a layer for the second time brings.

The imports of a layer are read in the earlier phase and again in the later one. Both readings are
of the same locations, so with steady finders the later one is led to what the earlier one was led
to, and to variants. What the earlier one loaded has layers in the tree, and an identity with layers
in the tree is not loaded again. So all that is attached by the second reading is for a profile.
-/

import LayeredConfig.Proofs.Import.Steady
import LayeredConfig.Proofs.Resolution.ImportOrder

namespace LayeredConfig

/-- In the earlier phase, nothing is known about profiles. -/
theorem Reading.known_of_before {reading : Reading} (isEarly : reading.phase = .before) :
    reading.known = none := by
  cases isKnown : reading.known with
  | none => rfl
  | some =>
    rw [phase, isKnown] at isEarly
    cases isEarly

namespace Configuration

open LayerTree

variable {repository : Repository} {initial : List Source} {request : ProfileRequest}
  {known : Option Profiles} {tree : LayerTree} {readings : List Reading}

/-! ### What lasts of a reading -/

/-- Children are attached to a layer by reading its imports, but for the initial layers. -/
theorem Reads.reading_of_attached
    (reads : Reads repository initial request known tree readings) :
    ∀ entry ∈ tree.entries, ∀ phase stamps, entry.children phase = some stamps →
      entry.role = .root ∧ phase = .before ∨
        ∃ reading ∈ readings, reading.layer.stamp = entry.stamp ∧ reading.phase = phase := by
  induction reads with
  | start bound =>
    intro entry member phase stamps attached
    rcases entry_start bound member with ⟨leaf, _⟩ | ⟨noLater, isRoot⟩
    · rw [leaf] at attached
      cases attached
    · cases phase with
      | before => exact Or.inl ⟨isRoot, rfl⟩
      | after =>
        rw [noLater] at attached
        cases attached
  | @step known tree next layer readings reads selected worked inductionHypothesis =>
    -- What was read before is among all that was read.
    have before {stamp : Nat} {phase : Phase} (wasRead : ∃ reading ∈ readings,
        reading.layer.stamp = stamp ∧ reading.phase = phase) :
        ∃ reading ∈ readings ++ readingsOf known tree layer,
          reading.layer.stamp = stamp ∧ reading.phase = phase := by
      obtain ⟨reading, member, isReading⟩ := wasRead
      exact ⟨reading, List.mem_append_left _ member, isReading⟩
    intro entry member phase stamps attached
    cases (reads.reaches.stepped selected worked).entryAfter member with
    | kept isOld => exact (inductionHypothesis _ isOld phase stamps attached).imp_right before
    | bound role isLayer =>
      rcases inductionHypothesis _ isLayer phase stamps attached with ⟨isRoot, _⟩ | wasRead
      · rw [show layer.entry.role = _ from role] at isRoot
        cases isRoot
      · exact Or.inr (before wasRead)
    | attached ready pending isLayer =>
      rw [Entry.children_attach] at attached
      split at attached
      · next same =>
        refine Or.inr ⟨⟨layer, known, tree.loaded⟩, List.mem_append_right _ ?_, rfl, same.symm⟩
        exact mem_readingsOf.mpr ⟨ready, rfl⟩
      · refine (inductionHypothesis _ isLayer phase stamps attached).imp (fun isRoot => ?_) before
        refine ⟨?_, isRoot.2⟩
        show layer.role.opened = .root
        rw [show layer.role = _ from isRoot.1]
        rfl
    | fresh isNew =>
      rw [Layer.children_entry, leaf_newLayers isNew] at attached
      cases attached
  | learn _ _ _ inductionHypothesis => exact inductionHypothesis

/-- The layers that are read keep their marks. -/
theorem Reads.mark_mem (reads : Reads repository initial request known tree readings) :
    ∀ reading ∈ readings, reading.layer.mark ∈ tree.marks := by
  induction reads with
  | start => exact nofun
  | @step known tree next layer readings reads selected worked inductionHypothesis =>
    have stepped := reads.reaches.stepped selected worked
    intro reading member
    refine stepped.mem_marks.mpr (Or.inl ?_)
    rcases List.mem_append.mp member with isOld | isNew
    · exact inductionHypothesis reading isOld
    · obtain ⟨_, rfl⟩ := mem_readingsOf.mp isNew
      exact LayerTree.mark_mem (mem_of_next selected)
  | learn _ _ _ inductionHypothesis => exact inductionHypothesis

/-- A layer comes from the resource that it came from when it was read. -/
theorem Reads.resource_eq (reads : Reads repository initial request known tree readings)
    {reading : Reading} (isReading : reading ∈ readings) {layer : Layer}
    (member : layer ∈ tree.layers) (sameStamp : reading.layer.stamp = layer.stamp) :
    reading.layer.resource? = layer.resource? := by
  have distinct : (tree.marks.map Mark.stamp).Nodup := by
    rw [marks_eq, List.map_map]
    exact distinct_iff.mp reads.reaches.sound.distinct
  have same : reading.layer.mark = layer.mark := List.inj_on_of_nodup_map distinct
    (reads.mark_mem reading isReading) (LayerTree.mark_mem member) sameStamp
  exact congrArg (fun mark : Mark => mark.origin?.map (·.resource)) same

/-- A reading is of what is imported by its layer, as the tree has it, for the resource of it. -/
theorem Reads.gather_eq (reads : Reads repository initial request known tree readings)
    {reading : Reading} (isReading : reading ∈ readings) {layer : Layer}
    (member : layer ∈ tree.layers) (sameStamp : reading.layer.stamp = layer.stamp) :
    reading.gather repository =
      repository.gather ⟨layer.resource?, reading.known⟩ layer.imports reading.loaded := by
  rw [Reading.gather, Reading.context, reads.resource_eq isReading member sameStamp,
    reads.imports_eq isReading member sameStamp]

/-- Every reading on the way to a tree succeeded. -/
theorem Reads.gathers (reads : Reads repository initial request known tree readings) :
    ∀ reading ∈ readings, ∃ gathered, (reading.gather repository).outcome = .ok gathered := by
  induction reads with
  | start => exact nofun
  | @step known tree next layer readings reads selected worked inductionHypothesis =>
    intro reading member
    rcases List.mem_append.mp member with isOld | isNew
    · exact inductionHypothesis reading isOld
    · obtain ⟨ready, rfl⟩ := mem_readingsOf.mp isNew
      rw [outcome_work_of_ready ready, outcome_gatherFor] at worked
      split at worked
      · next gathered succeeded => exact ⟨gathered, succeeded⟩
      · cases worked
  | learn _ _ _ inductionHypothesis => exact inductionHypothesis

/-! ### What was loaded while profiles were unknown -/

/-- The tree has a layer of the identity that was attached while profiles were unknown. -/
def HasEarly (tree : LayerTree) (id : String) : Prop :=
  ∃ mark ∈ tree.marks, mark.isOf id = true ∧
    ∀ origin, mark.origin? = some origin → origin.phase = .before

/-- While profiles are unknown, all that is in the tree was attached so. -/
theorem Reads.phase_of_unknown (reads : Reads repository initial request known tree readings)
    (unknown : known = none) :
    ∀ mark ∈ tree.marks, ∀ origin, mark.origin? = some origin → origin.phase = .before := by
  induction reads with
  | start bound =>
    intro mark member origin isOrigin
    rw [origin_start bound member] at isOrigin
    cases isOrigin
  | step reads selected worked inductionHypothesis =>
    intro mark member origin isOrigin
    rcases (reads.reaches.stepped selected worked).mem_marks.mp member with isOld | isNew
    · exact inductionHypothesis unknown mark isOld origin isOrigin
    · obtain ⟨load, _, isFind⟩ := mem_newMarks isNew
      rw [origin_of_find isFind, unknown] at isOrigin
      obtain rfl := Option.some.inj isOrigin
      rfl
  | learn => cases unknown

/-- What a reading passed over while profiles were unknown is in the tree. -/
theorem Reads.early_of_loaded (reads : Reads repository initial request known tree readings) :
    ∀ reading ∈ readings, reading.known = none → ∀ id ∈ reading.loaded, HasEarly tree id := by
  induction reads with
  | start => exact nofun
  | @step known tree next layer readings reads selected worked inductionHypothesis =>
    have stepped := reads.reaches.stepped selected worked
    intro reading member unknown id isLoaded
    have wasEarly : HasEarly tree id := by
      rcases List.mem_append.mp member with isOld | isNew
      · exact inductionHypothesis reading isOld unknown id isLoaded
      · obtain ⟨_, rfl⟩ := mem_readingsOf.mp isNew
        obtain ⟨mark, isMark, isOf⟩ := LayerTree.mem_loaded.mp isLoaded
        exact ⟨mark, isMark, isOf, reads.phase_of_unknown unknown mark isMark⟩
    obtain ⟨mark, isMark, early⟩ := wasEarly
    exact ⟨mark, stepped.mem_marks.mpr (Or.inl isMark), early⟩
  | learn _ _ _ inductionHypothesis => exact inductionHypothesis

/-- What a reading loaded while profiles were unknown is in the tree, if it had a source. -/
theorem Reads.early_of_load (reads : Reads repository initial request known tree readings)
    {reading : Reading} (isReading : reading ∈ readings) (isEarly : reading.phase = .before)
    {load : Resource × Bundle} (isLoad : load ∈ reading.loads repository)
    (notEmpty : load.2.sources ≠ []) : HasEarly tree load.1.id := by
  obtain ⟨parent, marks, held⟩ := reads.holds reading isReading
  obtain ⟨source, isSource⟩ := List.exists_mem_of_ne_nil _ notEmpty
  have isFind : (some ⟨load.1, load.2.profileSpecific, reading.phase⟩, some source) ∈
      marks.map Mark.find := by
    rw [held.finds]
    exact List.mem_flatMap.mpr ⟨load, List.mem_reverse.mpr isLoad, List.mem_map_of_mem isSource⟩
  obtain ⟨mark, isMark, find⟩ := List.mem_map.mp isFind
  have isFind : mark.find ∈ findsOf reading.phase load := find ▸ List.mem_map_of_mem isSource
  refine ⟨mark, held.marked mark isMark, (isOf_of_find isFind _).mpr rfl, fun origin isOrigin => ?_⟩
  rw [origin_of_find isFind] at isOrigin
  obtain rfl := Option.some.inj isOrigin
  exact isEarly

/-- The tree has no such layer of what a reading loads once profiles are known. -/
theorem Reads.not_early_of_load (reads : Reads repository initial request known tree readings)
    {reading : Reading} (isReading : reading ∈ readings) (isLate : reading.phase = .after)
    {load : Resource × Bundle} (isLoad : load ∈ reading.loads repository)
    (notEmpty : load.2.sources ≠ []) : ¬HasEarly tree load.1.id := by
  rintro ⟨mark, isMark, isOf, early⟩
  obtain ⟨parent, marks, held⟩ := reads.holds reading isReading
  have isFind := List.mem_map_of_mem (f := Mark.find)
    (held.only load isLoad notEmpty mark isMark isOf)
  rw [held.finds, List.mem_flatMap] at isFind
  obtain ⟨other, _, isFind⟩ := isFind
  have isBefore : reading.phase = .before := early _ (origin_of_find isFind)
  rw [isLate] at isBefore
  cases isBefore

/-! ### The second reading of a layer -/

/-- A child that a phase attached to a layer was loaded by the reading of it in that phase. -/
theorem Reads.load_of_child (reads : Reads repository initial request known tree readings)
    {reading : Reading} (isReading : reading ∈ readings) {layer : Layer}
    (member : layer ∈ tree.layers) (sameStamp : reading.layer.stamp = layer.stamp)
    {found : List Layer} (attached : layer.children reading.phase = some found) {child : Layer}
    (isChild : child ∈ found) :
    ∃ load ∈ reading.loads repository, child.resource? = some load.1 := by
  have sound := reads.reaches.sound
  obtain ⟨parent, marks, held⟩ := reads.holds reading isReading
  obtain ⟨other, otherMember, rfl, children, isAttached, areMarks⟩ := held.children sound
  have sameLayer : other = layer := (distinct_iff.mp sound.distinct).eq_of_stamp otherMember member
    (held.stamp.trans sameStamp)
  rw [sameLayer, attached] at isAttached
  obtain rfl := Option.some.inj isAttached
  have finds := held.finds
  rw [← areMarks, List.map_map] at finds
  exact load_of_part finds (List.mem_reverse.mpr isChild)

/-- What the later phase attaches to a layer whose imports the earlier one read is for a profile, if
the finders are steady. -/
theorem Reads.tagged_of_reread (steady : repository.Steady)
    (reads : Reads repository initial request known tree readings) {layer : Layer}
    (member : layer ∈ tree.layers) (isRead : layer.imports ≠ [] → layer.children .before ≠ none)
    {found : List Layer} (attached : layer.children .after = some found) {child : Layer}
    (isChild : child ∈ found) {resource : Resource} (isResource : child.resource? = some resource) :
    resource.profile ≠ none := by
  intro untagged
  have readIn {phase : Phase} {layers : List Layer}
      (children : layer.children phase = some layers) :=
    reads.reading_of_attached layer.entry (entry_mem member) phase _
      (congrArg (Option.map _) children)
  obtain ⟨late, isLate, lateStamp, latePhase⟩ := (readIn attached).resolve_left nofun
  obtain ⟨load, isLoad, childResource⟩ :=
    reads.load_of_child isLate member lateStamp (latePhase ▸ attached) isChild
  obtain rfl : load.1 = resource := Option.some.inj (childResource.symm.trans isResource)
  have notEmpty :=
    reads.sources_ne_nil isLoad (child_mem_layers member attached isChild) isResource
  have notEarly := reads.not_early_of_load isLate latePhase isLoad notEmpty
  have lateGather := reads.gather_eq isLate member lateStamp
  have imports : layer.imports ≠ [] := by
    rw [Reading.loads, lateGather] at isLoad
    obtain ⟨find, first, _⟩ := Repository.first_of_gather _ _ load isLoad
    exact List.ne_nil_of_mem (Repository.mem_finds.mp (List.mem_of_find?_eq_some first)).1
  obtain ⟨before, isBefore⟩ := Option.ne_none_iff_exists'.mp (isRead imports)
  obtain ⟨early, isEarly, earlyStamp, earlyPhase⟩ := (readIn isBefore).resolve_left
    fun isRoot => imports (congrArg Role.imports isRoot.1)
  have unknown := Reading.known_of_before earlyPhase
  have earlyGather := reads.gather_eq isEarly member earlyStamp
  obtain ⟨gathered, succeeded⟩ := reads.gathers early isEarly
  rw [earlyGather, unknown] at succeeded
  rw [Reading.loads, lateGather] at isLoad
  rcases steady.loaded_early succeeded isLoad untagged with isLoaded | isGathered
  · exact notEarly (reads.early_of_loaded early isEarly unknown _ isLoaded)
  · refine notEarly (reads.early_of_load isEarly earlyPhase ?_ notEmpty)
    rw [Reading.loads, earlyGather, unknown, Repository.loads_gather_ok succeeded]
    exact isGathered

end Configuration

end LayeredConfig
