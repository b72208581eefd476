/-
This file says what stays of a layer through all that happens to it.

The mark of a layer is its stamp, its source and the way in which it was found. No step changes the
mark of a layer or the order of the marks that are there. A step that loads bundles puts new marks
in one place among the others: those of the bundle that was read last come first, and those of one
bundle stand in the order of its sources. Children that were attached to a layer stay, too; so a
phase that came to a layer does not come to it again.
-/

import LayeredConfig.Proofs.Growth.Step

namespace LayeredConfig

/-- What never changes of a layer. -/
structure Mark where
  stamp : Nat
  origin? : Option Origin
  source? : Option Source

namespace Mark

/-- The identity of the resource that the layer comes from. -/
def id? (mark : Mark) : Option String :=
  mark.origin?.map (·.resource.id)

/-- Whether the layer comes from a resource of the given identity. -/
def isOf (id : String) (mark : Mark) : Bool :=
  mark.id? == some id

/-- What the layer was found as. -/
def find (mark : Mark) : Option Origin × Option Source :=
  (mark.origin?, mark.source?)

end Mark

def Entry.mark (entry : Entry) : Mark :=
  ⟨entry.stamp, entry.role.origin?, entry.role.source?⟩

def Layer.mark (layer : Layer) : Mark :=
  layer.entry.mark

theorem Entry.mark_attach (phase : Phase) (stamps : List Nat) (entry : Entry) :
    (entry.attach phase stamps).mark = entry.mark := by
  rw [mark, mark, attach, Role.origin_opened, Role.source_opened]

theorem Entry.mark_bound {entry : Entry} {origin : Origin} {source : Source}
    (role : entry.role = .found origin source) (declared : Declared) :
    (entry.withRole (.bound origin source declared)).mark = entry.mark := by
  rw [mark, mark, role]
  rfl

/-- An edit that keeps the mark of the entry puts the marks of the block among the others. -/
theorem Edited.marks {inside block old new : List Entry} {before after : Entry}
    (edited : Edited inside block before after old new) (same : after.mark = before.mark) :
    ∃ front back, old.map Entry.mark = front ++ back ∧
      new.map Entry.mark = front ++ block.map Entry.mark ++ back := by
  obtain ⟨front, back⟩ := edited
  refine ⟨front.map Entry.mark, (inside ++ before :: back).map Entry.mark, ?_, ?_⟩
  · simp only [List.map_append, List.append_assoc]
  · simp only [List.map_append, List.map_cons, List.append_assoc, same]

namespace LayerTree

/-- The marks of a tree, those of stronger layers first. -/
def marks (tree : LayerTree) : List Mark :=
  tree.entries.map Entry.mark

theorem marks_eq (tree : LayerTree) : tree.marks = tree.layers.map Layer.mark := by
  rw [marks, entries, List.map_map]
  rfl

theorem mark_mem {tree : LayerTree} {layer : Layer} (member : layer ∈ tree.layers) :
    layer.mark ∈ tree.marks := by
  rw [marks_eq]
  exact List.mem_map_of_mem member

theorem loaded_eq (tree : LayerTree) : tree.loaded = tree.marks.filterMap Mark.id? := by
  rw [marks_eq, List.filterMap_map, loaded]
  refine List.filterMap_congr fun layer _ => ?_
  show (layer.role.origin?.map (·.resource)).map (·.id) = layer.role.origin?.map (·.resource.id)
  rw [Option.map_map]
  rfl

theorem mem_loaded {tree : LayerTree} {id : String} :
    id ∈ tree.loaded ↔ ∃ mark ∈ tree.marks, mark.isOf id = true := by
  simp only [loaded_eq, List.mem_filterMap, Mark.isOf, beq_iff_eq]

/-! ### The marks of new layers -/

/-- What the sources of a load are found as. -/
def findsOf (phase : Phase) (load : Resource × Bundle) : List (Option Origin × Option Source) :=
  load.2.sources.map fun source => (some ⟨load.1, load.2.profileSpecific, phase⟩, some source)

/-- The marks of the layers for what a phase gathered, the strongest first. -/
def newMarks (tree : LayerTree) (phase : Phase) (gathered : List (Resource × Bundle)) : List Mark :=
  ((tree.newLayers phase gathered).map Layer.mark).reverse

section NewMarks

variable {tree next : LayerTree} {phase : Phase} {gathered : List (Resource × Bundle)}

theorem stamps_newMarks :
    (tree.newLayers phase gathered).map Layer.stamp =
      ((tree.newMarks phase gathered).map Mark.stamp).reverse := by
  rw [newMarks, List.map_reverse, List.reverse_reverse, List.map_map]
  rfl

theorem finds_newMarks :
    (tree.newMarks phase gathered).map Mark.find = gathered.reverse.flatMap (findsOf phase) := by
  have finds : (tree.newLayers phase gathered).map (Mark.find ∘ Layer.mark) =
      (childrenOf phase gathered).map fun found => (some found.1, some found.2) := by
    rw [show Mark.find ∘ Layer.mark = (fun role : Role => (role.origin?, role.source?)) ∘ Layer.role
      from rfl, ← List.map_map, roles_newLayers, List.map_map]
    rfl
  rw [newMarks, List.map_reverse, List.map_map, finds, ← List.map_reverse, reverse_childrenOf,
    List.map_flatMap]
  simp only [List.map_map]
  rfl

theorem mem_newMarks {mark : Mark} (member : mark ∈ tree.newMarks phase gathered) :
    ∃ load ∈ gathered, mark.find ∈ findsOf phase load := by
  have inFinds := List.mem_map_of_mem (f := Mark.find) member
  rw [finds_newMarks, List.mem_flatMap] at inFinds
  obtain ⟨load, isLoad, isFind⟩ := inFinds
  exact ⟨load, List.mem_reverse.mp isLoad, isFind⟩

theorem origin_of_find {mark : Mark} {load : Resource × Bundle}
    (isFind : mark.find ∈ findsOf phase load) :
    mark.origin? = some ⟨load.1, load.2.profileSpecific, phase⟩ := by
  obtain ⟨source, _, same⟩ := List.mem_map.mp isFind
  exact (congrArg Prod.fst same).symm

theorem resource_of_find {layer : Layer} {load : Resource × Bundle}
    (isFind : layer.mark.find ∈ findsOf phase load) : layer.resource? = some load.1 := by
  show layer.mark.origin?.map (·.resource) = some load.1
  rw [origin_of_find isFind]
  rfl

theorem sources_ne_nil_of_find {mark : Mark} {load : Resource × Bundle}
    (isFind : mark.find ∈ findsOf phase load) : load.2.sources ≠ [] := by
  intro empty
  rw [findsOf, empty] at isFind
  cases isFind

theorem isOf_of_find {mark : Mark} {load : Resource × Bundle}
    (isFind : mark.find ∈ findsOf phase load) (id : String) :
    mark.isOf id = true ↔ load.1.id = id := by
  rw [Mark.isOf, Mark.id?, origin_of_find isFind, Option.map_some, beq_iff_eq, Option.some_inj]

/-- The marks of one load stand together, and there are no others of its identity. -/
theorem newMarks_of_load {load : Resource × Bundle} (member : load ∈ gathered)
    (distinct : (gathered.map (·.1.id)).Nodup) :
    ∃ earlier block later, tree.newMarks phase gathered = earlier ++ block ++ later ∧
      block.map Mark.find = findsOf phase load ∧
      (tree.newMarks phase gathered).filter (Mark.isOf load.1.id) = block := by
  obtain ⟨front, back, rfl⟩ := List.append_of_mem member
  have finds : (tree.newMarks phase (front ++ load :: back)).map Mark.find = _ := finds_newMarks
  rw [List.reverse_append, List.reverse_cons, List.flatMap_append, List.flatMap_append,
    List.flatMap_singleton] at finds
  obtain ⟨most, later, splitLater, mostFinds, laterFinds⟩ := List.map_eq_append_iff.mp finds
  obtain ⟨earlier, block, rfl, earlierFinds, blockFinds⟩ := List.map_eq_append_iff.mp mostFinds
  refine ⟨earlier, block, later, splitLater, blockFinds, ?_⟩
  have others {marks : List Mark} {loads : List (Resource × Bundle)}
      (areFinds : marks.map Mark.find = loads.reverse.flatMap (findsOf phase))
      (differ : ∀ other ∈ loads, other.1.id ≠ load.1.id) :
      marks.filter (Mark.isOf load.1.id) = [] := by
    refine List.filter_eq_nil_iff.mpr fun mark isMark => ?_
    have inFinds := List.mem_map_of_mem (f := Mark.find) isMark
    rw [areFinds, List.mem_flatMap] at inFinds
    obtain ⟨other, isOther, isFind⟩ := inFinds
    rw [isOf_of_find isFind]
    exact differ other (List.mem_reverse.mp isOther)
  have all : block.filter (Mark.isOf load.1.id) = block := by
    refine List.filter_eq_self.mpr fun mark isMark => ?_
    have isFind := List.mem_map_of_mem (f := Mark.find) isMark
    rw [blockFinds] at isFind
    exact (isOf_of_find isFind _).mpr rfl
  rw [List.map_append, List.map_cons, List.nodup_append, List.nodup_cons] at distinct
  obtain ⟨_, ⟨notInBack, _⟩, notInFront⟩ := distinct
  rw [splitLater, List.filter_append, List.filter_append, all,
    others earlierFinds fun other isOther same => notInBack (same ▸ List.mem_map_of_mem isOther),
    others laterFinds fun other isOther =>
      notInFront _ (List.mem_map_of_mem isOther) _ List.mem_cons_self]
  rw [List.nil_append, List.append_nil]

end NewMarks

/-! ### A step and the marks -/

section Stepped

variable {known : Option Profiles} {tree next : LayerTree} {layer : Layer} {phase : Phase}
  {gathered : List (Resource × Bundle)}

/-- A step puts the marks of what it loads in one place among the others. -/
theorem Stepped.marks (stepped : Stepped phase tree next layer gathered) :
    ∃ front back, tree.marks = front ++ back ∧
      next.marks = front ++ tree.newMarks phase gathered ++ back := by
  cases stepped with
  | bound role edited _ => exact edited.marks (Entry.mark_bound role _)
  | attached _ _ edited _ =>
    obtain ⟨front, back, old, new⟩ := edited.marks (Entry.mark_attach _ _ _)
    refine ⟨front, back, old, new.trans ?_⟩
    rw [newMarks, List.map_reverse, List.map_map]
    rfl

theorem Stepped.mem_marks (stepped : Stepped phase tree next layer gathered) {mark : Mark} :
    mark ∈ next.marks ↔ mark ∈ tree.marks ∨ mark ∈ tree.newMarks phase gathered := by
  obtain ⟨front, back, old, new⟩ := stepped.marks
  rw [old, new]
  simp only [List.mem_append]
  tauto

/-- What was attached to a layer stays attached to it, and the layer declares the same imports. -/
theorem Stepped.keeps_parent (sound : tree.Sound known)
    (stepped : Stepped phase tree next layer gathered) {parent : Entry}
    (member : parent ∈ tree.entries) {earlier : Phase} {stamps : List Nat}
    (attached : parent.children earlier = some stamps) :
    ∃ later ∈ next.entries, later.stamp = parent.stamp ∧
      later.role.imports = parent.role.imports ∧ later.children earlier = some stamps := by
  cases stepped with
  | bound role edited _ =>
    rcases edited.mem_new member with rfl | stays
    · rw [sound.tidy _ member (by show layer.role.isClosed = true; rw [role]; rfl)] at attached
      cases attached
    · exact ⟨parent, stays, rfl, rfl, attached⟩
  | attached _ pending edited _ =>
    rcases edited.mem_new member with rfl | stays
    · refine ⟨_, edited.after_mem, rfl, Role.imports_opened _, ?_⟩
      have different : earlier ≠ phase := by
        rintro rfl
        rw [Layer.children_entry, pending] at attached
        cases attached
      rw [Entry.children_attach, if_neg different, attached]
    · exact ⟨parent, stays, rfl, rfl, attached⟩

/-- What was attached to a layer stays attached to it. -/
theorem Stepped.keeps_children (sound : tree.Sound known)
    (stepped : Stepped phase tree next layer gathered) {parent : Entry}
    (member : parent ∈ tree.entries) {earlier : Phase} {stamps : List Nat}
    (attached : parent.children earlier = some stamps) :
    ∃ later ∈ next.entries, later.stamp = parent.stamp ∧ later.children earlier = some stamps := by
  obtain ⟨later, isLater, same, _, stays⟩ := stepped.keeps_parent sound member attached
  exact ⟨later, isLater, same, stays⟩

/-! ### Phases that came to a layer -/

/-- A phase has come to the layer with a stamp, and left children there or none. -/
def Attached (tree : LayerTree) (stamp : Nat) (phase : Phase) : Prop :=
  ∃ parent ∈ tree.entries, parent.stamp = stamp ∧ ∃ stamps, parent.children phase = some stamps

theorem Stepped.keeps_attached (sound : tree.Sound known)
    (stepped : Stepped phase tree next layer gathered) {stamp : Nat} {earlier : Phase}
    (attached : tree.Attached stamp earlier) : next.Attached stamp earlier := by
  obtain ⟨parent, isParent, rfl, stamps, children⟩ := attached
  obtain ⟨later, isLater, sameStamp, stays⟩ := stepped.keeps_children sound isParent children
  exact ⟨later, isLater, sameStamp, stamps, stays⟩

/-- A phase comes to the layer whose imports a step reads. -/
theorem Stepped.attached_new (ready : layer.role.isFound = false)
    (stepped : Stepped phase tree next layer gathered) : next.Attached layer.stamp phase := by
  cases stepped with
  | bound role =>
    rw [role] at ready
    cases ready
  | attached _ _ edited _ => exact ⟨_, edited.after_mem, rfl, _, if_pos rfl⟩

/-- A phase has not come yet to the layer whose imports are to be read next. -/
theorem not_attached_of_next (sound : tree.Sound known) (selected : tree.next? known = some layer)
    (ready : layer.role.isFound = false) : ¬tree.Attached layer.stamp (Phase.ofKnown known) := by
  rintro ⟨parent, isParent, sameStamp, stamps, children⟩
  have isLayer : parent = layer.entry := List.inj_on_of_nodup_map sound.distinct isParent
    (entry_mem (mem_of_next selected)) sameStamp
  obtain ⟨_, _, pending⟩ := pending_of_next selected ready
  rw [isLayer, Layer.children_entry, pending] at children
  cases children

end Stepped

end LayerTree

end LayeredConfig
