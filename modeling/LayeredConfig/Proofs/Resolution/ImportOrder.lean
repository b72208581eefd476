/-
This file proves in which order of strength the imports of a layer come.

A reading attaches what it loads to one layer and in one phase. Of these children the ones that were
read last are the strongest, and each owns a segment of the order. So of what one reading loads,
what is owed to a later find comes before what is owed to an earlier one: variants before what
counts for all profiles, the variant that is named last before the others, and the location that is
declared last before the others. What the later phase attaches to a layer comes before what the
earlier one did, and everything below a layer comes before the layer.

A resource counts for the location and the search through which it is first found.
-/

import LayeredConfig.Proofs.Import.Searching
import LayeredConfig.Proofs.Resolution.Holding

namespace LayeredConfig

/-! ### What a reading brings -/

namespace Reading

/-- What the searches of a reading lead to, in the order in which they are made. -/
def finds (repository : Repository) (reading : Reading) : List Find :=
  repository.finds reading.context reading.layer.imports

/-- The reading loads a resource, and the find is the first one of its identity. -/
structure Brings (repository : Repository) (reading : Reading) (find : Find) : Prop where
  loaded : ∃ bundle, (find.resource, bundle) ∈ reading.loads repository
  first : (reading.finds repository).find?
    (fun other => other.resource.id == find.resource.id) = some find

section Brings

variable {repository : Repository} {reading : Reading}

theorem Brings.mem_finds {find : Find} (brings : reading.Brings repository find) :
    find ∈ reading.finds repository :=
  List.mem_of_find?_eq_some brings.first

theorem Brings.mem_answer {find : Find} (brings : reading.Brings repository find) :
    find.resource ∈ repository.answer reading.context find.location find.search :=
  (Repository.mem_finds.mp brings.mem_finds).2

theorem Brings.mem_imports {find : Find} (brings : reading.Brings repository find) :
    find.location ∈ reading.layer.imports :=
  (Repository.mem_finds.mp brings.mem_finds).1

/-- All that a reading loads is owed to one find each. -/
theorem existsUnique_brings {load : Resource × Bundle}
    (member : load ∈ reading.loads repository) :
    ∃! find, find.resource = load.1 ∧ reading.Brings repository find := by
  obtain ⟨find, first, same⟩ := Repository.first_of_gather _ _ load member
  refine ⟨find, ⟨same, ⟨load.2, ?_⟩, ?_⟩, ?_⟩
  · rw [same]
    exact member
  · rw [same]
    exact first
  · rintro other ⟨sameResource, brings⟩
    have otherFirst := brings.first
    rw [sameResource] at otherFirst
    exact Option.some.inj (otherFirst.symm.trans first)

/-- No identity is loaded twice in one reading. -/
theorem distinct_loads (repository : Repository) (reading : Reading) :
    ((reading.loads repository).map (·.1.id)).Nodup :=
  Repository.gather_distinct _ _

/-- Variants are brought only where profiles are known. -/
theorem Brings.phase_of_variants {location : Location} {variant : Resource}
    (brings : reading.Brings repository ⟨location, .variants, variant⟩) :
    reading.phase = .after := by
  have inAnswer := brings.mem_answer
  unfold Repository.answer at inAnswer
  split at inAnswer
  · cases inAnswer
  · rw [phase]
    cases known : reading.known with
    | none =>
      rw [show reading.context.known = none from known] at inAnswer
      cases inAnswer
    | some profiles => rfl

/-- Where the finds fall in two parts, what is brought by the second is loaded after what is brought
by the first. -/
theorem loads_split {front back : List Find} (split : reading.finds repository = front ++ back)
    {weak strong : Find} (weakBrings : reading.Brings repository weak)
    (strongBrings : reading.Brings repository strong) (inFront : weak ∈ front)
    (notInFront : strong ∉ front) :
    ∃ first second weakBundle strongBundle, reading.loads repository = first ++ second ∧
      (weak.resource, weakBundle) ∈ first ∧ (strong.resource, strongBundle) ∈ second := by
  obtain ⟨weakBundle, isWeak⟩ := weakBrings.loaded
  obtain ⟨strongBundle, isStrong⟩ := strongBrings.loaded
  obtain ⟨first, second, isSplit, owed, differ⟩ :=
    Repository.loads_gather_append split reading.loaded
  have loads : reading.loads repository = first ++ second := isSplit
  rw [loads, List.mem_append] at isWeak isStrong
  refine ⟨first, second, weakBundle, strongBundle, loads, ?_, ?_⟩
  · exact isWeak.resolve_right fun inSecond => differ _ inSecond weak inFront rfl
  · refine isStrong.resolve_left fun inFirst => notInFront ?_
    obtain ⟨find, isFind, same⟩ := owed _ inFirst
    -- The first find of the identity is in front, and the resource is owed to no other.
    have isFirst := strongBrings.first
    rw [split, List.find?_append] at isFirst
    have inPart : (front.find? fun other => other.resource.id == strong.resource.id).isSome :=
      List.find?_isSome.mpr ⟨find, isFind, beq_iff_eq.mpr (congrArg Resource.id same)⟩
    obtain ⟨found, isFound⟩ := Option.isSome_iff_exists.mp inPart
    rw [isFound, Option.some_or] at isFirst
    exact Option.some.inj isFirst ▸ List.mem_of_find?_eq_some isFound

end Brings

end Reading

/-! ### What a tree ranks -/

namespace LayerTree

/-- Every layer of the first resource comes before every layer of the second one, and before all
that is below such a layer. -/
def Outranks (tree : LayerTree) (strong weak : Resource) : Prop :=
  ∀ first ∈ tree.layers, first.resource? = some strong →
    ∀ second ∈ tree.layers, second.resource? = some weak →
      ∀ inner ∈ second.order, [first, inner].Sublist tree.layers

section Segments

variable {tree : LayerTree}

theorem sublist_of_split {front upper lower back : List Layer}
    (split : tree.layers = front ++ (upper ++ lower) ++ back) {first second : Layer}
    (inUpper : first ∈ upper) (inLower : second ∈ lower) : [first, second].Sublist tree.layers := by
  rw [split]
  have both := (List.singleton_sublist.mpr inUpper).append (List.singleton_sublist.mpr inLower)
  exact (both.trans (List.sublist_append_right front _)).trans (List.sublist_append_left _ back)

/-- Everything below a layer comes before the layer. -/
theorem sublist_of_descendant {layer inner : Layer} (member : layer ∈ tree.layers)
    (isInner : inner ∈ layer.descendants) : [inner, layer].Sublist tree.layers := by
  obtain ⟨front, back, split⟩ := layers_around member
  exact sublist_of_split split isInner (List.mem_singleton_self layer)

/-- The children of the layer that a reading was of, with their marks. -/
theorem HeldAs.children {known : Option Profiles} {repository : Repository} {reading : Reading}
    {parent : Entry} {marks : List Mark} (sound : tree.Sound known)
    (held : tree.HeldAs repository reading parent marks) :
    ∃ layer ∈ tree.layers, layer.entry = parent ∧ ∃ found,
      layer.children reading.phase = some found ∧ found.reverse.map Layer.mark = marks := by
  obtain ⟨layer, inLayers, rfl⟩ := List.mem_map.mp held.inTree
  obtain ⟨found, isFound, stamps⟩ := Option.map_eq_some_iff.mp held.attached
  refine ⟨layer, inLayers, rfl, found, isFound, ?_⟩
  have distinct : (tree.marks.map Mark.stamp).Nodup := by
    rw [marks_eq, List.map_map]
    exact distinct_iff.mp sound.distinct
  refine eq_of_map_eq distinct (fun mark isMark => ?_) held.marked ?_
  · obtain ⟨child, isChild, rfl⟩ := List.mem_map.mp isMark
    rw [marks_eq]
    exact List.mem_map_of_mem (child_mem_layers inLayers isFound (List.mem_reverse.mp isChild))
  · have reversed := congrArg List.reverse stamps
    rw [List.reverse_reverse, ← List.map_reverse] at reversed
    rw [← reversed, List.map_map]
    rfl

/-- A layer with the mark of a child is the child. -/
theorem child_of_mark {known : Option Profiles} (sound : tree.Sound known) {layer child : Layer}
    {phase : Phase} {found : List Layer} (member : layer ∈ tree.layers)
    (attached : layer.children phase = some found) (inTree : child ∈ tree.layers)
    {part : List Layer} (within : ∀ other ∈ part, other ∈ found)
    (isMark : child.mark ∈ part.map Layer.mark) : child ∈ part := by
  obtain ⟨other, isOther, same⟩ := List.mem_map.mp isMark
  have sameStamp : other.stamp = child.stamp := congrArg Mark.stamp same
  rwa [← (distinct_iff.mp sound.distinct).eq_of_stamp
    (child_mem_layers member attached (within other isOther)) inTree sameStamp]

/-- The layers of a part of the children come from the loads whose finds the part has. -/
theorem load_of_part {phase : Phase} {part : List Layer} {loads : List (Resource × Bundle)}
    (finds : part.map (Mark.find ∘ Layer.mark) = loads.reverse.flatMap (findsOf phase))
    {layer : Layer} (member : layer ∈ part) : ∃ load ∈ loads, layer.resource? = some load.1 := by
  have isFind := List.mem_map_of_mem (f := Mark.find ∘ Layer.mark) member
  rw [finds, List.mem_flatMap] at isFind
  obtain ⟨load, isLoad, inLoad⟩ := isFind
  exact ⟨load, List.mem_reverse.mp isLoad, resource_of_find inLoad⟩

/-- The children of the later phase come before those of the earlier one. -/
theorem layers_split_phases {layer : Layer} {before after : List Layer}
    (member : layer ∈ tree.layers) (isBefore : layer.children .before = some before)
    (isAfter : layer.children .after = some after) :
    ∃ front back,
      tree.layers = front ++ (Layer.orderAll after ++ Layer.orderAll before) ++ back := by
  obtain ⟨front, back, split⟩ := layers_around member
  refine ⟨front, [layer] ++ back, ?_⟩
  rw [split, Layer.descendants, isAfter, isBefore, Layer.orderPhase, Layer.orderPhase]
  simp only [List.append_assoc]

end Segments

end LayerTree

/-! ### What readings rank -/

namespace Configuration

open LayerTree Repository

section Reads

variable {repository : Repository} {initial : List Source} {request : ProfileRequest}
  {known : Option Profiles} {tree : LayerTree} {readings : List Reading}

/-- A resource of which there are layers was loaded with sources, whoever loaded it. -/
theorem Reads.sources_ne_nil (reads : Reads repository initial request known tree readings)
    {reading : Reading} {load : Resource × Bundle} (isLoad : load ∈ reading.loads repository)
    {layer : Layer} (member : layer ∈ tree.layers) (isResource : layer.resource? = some load.1) :
    load.2.sources ≠ [] := by
  have isFound : layer.mark.origin? ≠ none := by
    intro notFound
    rw [Layer.resource?, show layer.origin? = none from notFound] at isResource
    cases isResource
  obtain ⟨other, inLoads, phase, isFind⟩ := reads.reaches.find_mem _ (mark_mem member) isFound
  obtain ⟨otherReading, _, isOther⟩ := List.mem_flatMap.mp inLoads
  have sameResource : other.1 = load.1 :=
    Option.some.inj ((resource_of_find isFind).symm.trans isResource)
  -- Reading a resource comes to the same whenever it is read.
  have outcome := outcome_of_gather _ _ load isLoad
  have otherOutcome := outcome_of_gather _ _ other isOther
  rw [sameResource, outcome] at otherOutcome
  have sameBundle : load.2 = other.2 := Option.some.inj (Except.ok.inj otherOutcome)
  exact sameBundle ▸ sources_ne_nil_of_find isFind

/-- The layers of a resource that a reading loaded are children of the layer that was read. -/
theorem Reads.mark_held (reads : Reads repository initial request known tree readings)
    {reading : Reading} {parent : Entry} {marks : List Mark}
    (held : tree.HeldAs repository reading parent marks) {load : Resource × Bundle}
    (isLoad : load ∈ reading.loads repository) {layer : Layer} (member : layer ∈ tree.layers)
    (isResource : layer.resource? = some load.1) : layer.mark ∈ marks := by
  have notEmpty := reads.sources_ne_nil isLoad member isResource
  refine held.only load isLoad notEmpty _ (mark_mem member) ?_
  rw [show Mark.isOf load.1.id layer.mark = (layer.resource?.map (·.id) == some load.1.id) from
    (congrFun (isOf_mark load.1.id) layer).symm, isResource]
  exact beq_self_eq_true _

/-- Of what one reading loads, the later loads outrank the earlier ones. -/
theorem Reads.outranks_of_loads (reads : Reads repository initial request known tree readings)
    {reading : Reading} (isReading : reading ∈ readings) {first second : List (Resource × Bundle)}
    (split : reading.loads repository = first ++ second) {weak strong : Resource × Bundle}
    (weakIn : weak ∈ first) (strongIn : strong ∈ second) : tree.Outranks strong.1 weak.1 := by
  have sound := reads.reaches.sound
  obtain ⟨parent, marks, held⟩ := reads.holds reading isReading
  obtain ⟨layer, member, _, found, attached, areMarks⟩ := held.children sound
  have finds := held.finds
  rw [split, List.reverse_append, List.flatMap_append, ← areMarks, List.map_map] at finds
  obtain ⟨upper, lower, splitFound, upperFinds, lowerFinds⟩ := List.map_eq_append_iff.mp finds
  have apart : ∀ load ∈ first, ∀ other ∈ second, load.1 ≠ other.1 := by
    have distinct := Reading.distinct_loads repository reading
    rw [split, List.map_append, List.nodup_append] at distinct
    intro load isLoad other isOther same
    exact distinct.2.2 _ (List.mem_map_of_mem isLoad) _ (List.mem_map_of_mem isOther)
      (congrArg Resource.id same)
  -- Every layer of a load is a child, in the part of its load.
  have inParts {load : Resource × Bundle} (isLoad : load ∈ reading.loads repository)
      {child : Layer} (inTree : child ∈ tree.layers) (isResource : child.resource? = some load.1) :
      child ∈ upper ∨ child ∈ lower := by
    have isMark := reads.mark_held held isLoad inTree isResource
    rw [← areMarks] at isMark
    rw [← List.mem_append, ← splitFound]
    exact child_of_mark sound member attached inTree (fun _ => List.mem_reverse.mp) isMark
  intro strongLayer strongTree isStrong weakLayer weakTree isWeak inner isInner
  have inUpper : strongLayer ∈ upper := by
    refine (inParts (split ▸ List.mem_append_right _ strongIn) strongTree isStrong).resolve_right
      fun inLower => ?_
    obtain ⟨load, isLoad, resource⟩ := load_of_part lowerFinds inLower
    exact apart load isLoad strong strongIn (Option.some.inj (resource.symm.trans isStrong))
  have inLower : weakLayer ∈ lower := by
    refine (inParts (split ▸ List.mem_append_left _ weakIn) weakTree isWeak).resolve_left
      fun inUpper => ?_
    obtain ⟨load, isLoad, resource⟩ := load_of_part upperFinds inUpper
    exact apart weak weakIn load isLoad (Option.some.inj (isWeak.symm.trans resource))
  obtain ⟨front, back, layers⟩ := layers_split member attached
  rw [Layer.orderAll_eq, splitFound, List.flatMap_append] at layers
  exact sublist_of_split layers
    (List.mem_flatMap.mpr ⟨strongLayer, inUpper, Layer.self_mem_order strongLayer⟩)
    (List.mem_flatMap.mpr ⟨weakLayer, inLower, isInner⟩)

/-- Of what is loaded for a layer, the loads of the later phase outrank those of the earlier one. -/
theorem Reads.outranks_of_phases (reads : Reads repository initial request known tree readings)
    {early late : Reading} (isEarly : early ∈ readings) (isLate : late ∈ readings)
    (sameStamp : early.layer.stamp = late.layer.stamp) (earlyPhase : early.phase = .before)
    (latePhase : late.phase = .after) {weak strong : Resource × Bundle}
    (weakIn : weak ∈ early.loads repository) (strongIn : strong ∈ late.loads repository) :
    tree.Outranks strong.1 weak.1 := by
  have sound := reads.reaches.sound
  obtain ⟨_, _, earlyHeld⟩ := reads.holds early isEarly
  obtain ⟨_, _, lateHeld⟩ := reads.holds late isLate
  obtain ⟨layer, member, rfl, before, isBefore, beforeMarks⟩ := earlyHeld.children sound
  obtain ⟨other, otherMember, rfl, after, isAfter, afterMarks⟩ := lateHeld.children sound
  have sameLayer : other = layer := (distinct_iff.mp sound.distinct).eq_of_stamp otherMember member
    (lateHeld.stamp.trans (sameStamp.symm.trans earlyHeld.stamp.symm))
  rw [sameLayer, latePhase] at isAfter
  rw [earlyPhase] at isBefore
  intro strongLayer strongTree isStrong weakLayer weakTree isWeak inner isInner
  have inAfter : strongLayer ∈ after := by
    have isMark := reads.mark_held lateHeld strongIn strongTree isStrong
    rw [← afterMarks] at isMark
    exact List.mem_reverse.mp
      (child_of_mark sound member isAfter strongTree (fun _ => List.mem_reverse.mp) isMark)
  have inBefore : weakLayer ∈ before := by
    have isMark := reads.mark_held earlyHeld weakIn weakTree isWeak
    rw [← beforeMarks] at isMark
    exact List.mem_reverse.mp
      (child_of_mark sound member isBefore weakTree (fun _ => List.mem_reverse.mp) isMark)
  obtain ⟨front, back, layers⟩ := layers_split_phases member isBefore isAfter
  exact sublist_of_split layers
    (Layer.mem_orderAll.mpr ⟨strongLayer, inAfter, Layer.self_mem_order strongLayer⟩)
    (Layer.mem_orderAll.mpr ⟨weakLayer, inBefore, isInner⟩)

/-- Of what a reading brings, what is owed to later finds outranks what is owed to earlier ones. -/
theorem Reads.outranks_of_finds (reads : Reads repository initial request known tree readings)
    {reading : Reading} (isReading : reading ∈ readings) {front back : List Find}
    (split : reading.finds repository = front ++ back) {weak strong : Find}
    (weakBrings : reading.Brings repository weak) (strongBrings : reading.Brings repository strong)
    (inFront : weak ∈ front) (notInFront : strong ∉ front) :
    tree.Outranks strong.resource weak.resource := by
  obtain ⟨first, second, weakBundle, strongBundle, loads, isWeak, isStrong⟩ :=
    Reading.loads_split split weakBrings strongBrings inFront notInFront
  exact reads.outranks_of_loads isReading loads isWeak isStrong

end Reads

end Configuration

/-! ### The ranks of imports -/

/-- Of two items of a list, the one that comes later is not among those up to the other. -/
theorem split_of_idxOf_lt {Item : Type} [DecidableEq Item] {items : List Item}
    {earlier later : Item} (isLater : later ∈ items)
    (before : items.idxOf earlier < items.idxOf later) :
    ∃ front back, items = front ++ later :: back ∧ earlier ∈ front ∧ later ∉ front := by
  obtain ⟨front, back, rfl, notInFront⟩ := List.eq_append_cons_of_mem isLater
  refine ⟨front, back, rfl, ?_, notInFront⟩
  by_contra notEarlier
  rw [List.idxOf_append_of_notMem notInFront, List.idxOf_cons_self,
    List.idxOf_append_of_notMem notEarlier] at before
  omega

namespace LayerTree

/-- How what was loaded for a layer is ranked in the tree, given the readings on the way to it. -/
structure Ranked (repository : Repository) (readings : List Reading) (tree : LayerTree)
    (layer : Layer) : Prop where
  /-- A variant of a location outranks what the location has for all profiles. -/
  variants : ∀ first ∈ readings, first.layer.stamp = layer.stamp →
    ∀ second ∈ readings, second.layer.stamp = layer.stamp → ∀ location base variant,
      first.Brings repository ⟨location, .base, base⟩ →
      second.Brings repository ⟨location, .variants, variant⟩ → tree.Outranks variant base
  /-- Of two variants of a location, the one that comes later in the answer outranks the other. -/
  answers : ∀ first ∈ readings, first.layer.stamp = layer.stamp →
    ∀ second ∈ readings, second.layer.stamp = layer.stamp → ∀ location earlier later,
      first.Brings repository ⟨location, .variants, earlier⟩ →
      second.Brings repository ⟨location, .variants, later⟩ →
      (repository.answer second.context location .variants).idxOf earlier <
        (repository.answer second.context location .variants).idxOf later →
      tree.Outranks later earlier
  /-- Of what one reading brings for all profiles, that of a location declared later outranks that
  of one declared earlier. -/
  locations : ∀ reading ∈ readings, reading.layer.stamp = layer.stamp →
    ∀ firstLocation secondLocation earlier later,
      reading.Brings repository ⟨firstLocation, .base, earlier⟩ →
      reading.Brings repository ⟨secondLocation, .base, later⟩ →
      layer.imports.idxOf firstLocation < layer.imports.idxOf secondLocation →
      tree.Outranks later earlier
  below : ∀ inner ∈ layer.descendants, [inner, layer].Sublist tree.layers

end LayerTree

namespace Configuration

open LayerTree Repository

section Ranks

variable {repository : Repository} {initial : List Source} {request : ProfileRequest}
  {known : Option Profiles} {tree : LayerTree} {readings : List Reading}

theorem Reads.variant_outranks (reads : Reads repository initial request known tree readings)
    {first second : Reading} (isFirst : first ∈ readings) (isSecond : second ∈ readings)
    (sameStamp : first.layer.stamp = second.layer.stamp) {location : Location}
    {base variant : Resource} (baseBrings : first.Brings repository ⟨location, .base, base⟩)
    (variantBrings : second.Brings repository ⟨location, .variants, variant⟩) :
    tree.Outranks variant base := by
  have latePhase := variantBrings.phase_of_variants
  cases earlyPhase : first.phase with
  | before =>
    obtain ⟨_, isBase⟩ := baseBrings.loaded
    obtain ⟨_, isVariant⟩ := variantBrings.loaded
    exact reads.outranks_of_phases isFirst isSecond sameStamp earlyPhase latePhase isBase isVariant
  | after =>
    obtain rfl := reads.eq_of_place isFirst isSecond sameStamp (earlyPhase.trans latePhase.symm)
    obtain ⟨front, back, imports, notInFront⟩ := List.eq_append_cons_of_mem baseBrings.mem_imports
    have split : first.finds repository =
        repository.finds first.context front ++ repository.searched first.context location .base ++
          (repository.searched first.context location .variants ++
            repository.finds first.context back) := by
      rw [Reading.finds, imports, finds_append, finds_cons]
      simp only [List.append_assoc]
    refine reads.outranks_of_finds isFirst split baseBrings variantBrings ?_ fun inFront => ?_
    · exact List.mem_append_right _ (mem_searched.mpr ⟨rfl, rfl, baseBrings.mem_answer⟩)
    · rcases List.mem_append.mp inFront with earlier | isBase
      · exact notInFront (mem_finds.mp earlier).1
      · cases (mem_searched.mp isBase).2.1

theorem Reads.later_variant_outranks
    (reads : Reads repository initial request known tree readings) {first second : Reading}
    (isFirst : first ∈ readings) (isSecond : second ∈ readings)
    (sameStamp : first.layer.stamp = second.layer.stamp) {location : Location}
    {earlier later : Resource}
    (earlierBrings : first.Brings repository ⟨location, .variants, earlier⟩)
    (laterBrings : second.Brings repository ⟨location, .variants, later⟩)
    (before : (repository.answer second.context location .variants).idxOf earlier <
      (repository.answer second.context location .variants).idxOf later) :
    tree.Outranks later earlier := by
  obtain rfl := reads.eq_of_place isFirst isSecond sameStamp
    (earlierBrings.phase_of_variants.trans laterBrings.phase_of_variants.symm)
  obtain ⟨front, back, imports, notInFront⟩ := List.eq_append_cons_of_mem laterBrings.mem_imports
  obtain ⟨inner, outer, answer, isEarlier, notLater⟩ :=
    split_of_idxOf_lt laterBrings.mem_answer before
  have searched : repository.searched first.context location .variants =
      inner.map (fun resource => ⟨location, .variants, resource⟩) ++
        (later :: outer).map fun resource => ⟨location, .variants, resource⟩ := by
    rw [Repository.searched, answer, List.map_append]
  have split : first.finds repository =
      repository.finds first.context front ++ repository.searched first.context location .base ++
        inner.map (fun resource => ⟨location, .variants, resource⟩) ++
        ((later :: outer).map (fun resource => ⟨location, .variants, resource⟩) ++
          repository.finds first.context back) := by
    rw [Reading.finds, imports, finds_append, finds_cons, searched]
    simp only [List.append_assoc]
  refine reads.outranks_of_finds isFirst split earlierBrings laterBrings ?_ fun inFront => ?_
  · exact List.mem_append_right _ (List.mem_map_of_mem isEarlier)
  · rcases List.mem_append.mp inFront with isSooner | inAnswer
    · rcases List.mem_append.mp isSooner with isOther | isBase
      · exact notInFront (mem_finds.mp isOther).1
      · cases (mem_searched.mp isBase).2.1
    · obtain ⟨resource, isResource, same⟩ := List.mem_map.mp inAnswer
      cases same
      exact notLater isResource

theorem Reads.later_location_outranks
    (reads : Reads repository initial request known tree readings) {reading : Reading}
    (isReading : reading ∈ readings) {first second : Location} {earlier later : Resource}
    (earlierBrings : reading.Brings repository ⟨first, .base, earlier⟩)
    (laterBrings : reading.Brings repository ⟨second, .base, later⟩)
    (before : reading.layer.imports.idxOf first < reading.layer.imports.idxOf second) :
    tree.Outranks later earlier := by
  obtain ⟨front, back, imports, isEarlier, notInFront⟩ :=
    split_of_idxOf_lt laterBrings.mem_imports before
  have split : reading.finds repository = repository.finds reading.context front ++
      repository.finds reading.context (second :: back) := by
    rw [Reading.finds, imports, finds_append]
  refine reads.outranks_of_finds isReading split earlierBrings laterBrings ?_ fun inFront => ?_
  · exact mem_finds.mpr ⟨isEarlier, earlierBrings.mem_answer⟩
  · exact notInFront (mem_finds.mp inFront).1

/-- A layer declares the imports that were read. -/
theorem Reads.imports_eq (reads : Reads repository initial request known tree readings)
    {reading : Reading} (isReading : reading ∈ readings) {layer : Layer}
    (member : layer ∈ tree.layers) (sameStamp : reading.layer.stamp = layer.stamp) :
    reading.layer.imports = layer.imports := by
  obtain ⟨parent, marks, held⟩ := reads.holds reading isReading
  rw [← held.imports, held.parent_eq reads.reaches.sound member sameStamp]
  rfl

theorem Reads.ranked (reads : Reads repository initial request known tree readings) {layer : Layer}
    (member : layer ∈ tree.layers) : tree.Ranked repository readings layer where
  variants _ isFirst firstStamp _ isSecond secondStamp _ _ _ :=
    reads.variant_outranks isFirst isSecond (firstStamp.trans secondStamp.symm)
  answers _ isFirst firstStamp _ isSecond secondStamp _ _ _ :=
    reads.later_variant_outranks isFirst isSecond (firstStamp.trans secondStamp.symm)
  locations _ isReading sameStamp _ _ _ _ earlierBrings laterBrings before :=
    reads.later_location_outranks isReading earlierBrings laterBrings
      (reads.imports_eq isReading member sameStamp ▸ before)
  below _ := sublist_of_descendant member

end Ranks

/-- A resolution that succeeds has loaded all it did by readings, each load owed to one find, and
what it loaded for the imports of a layer is ranked in the final tree: variants over what counts for
all profiles, later variants over earlier ones, locations declared later over those declared
earlier, and all that is below the layer over the layer. -/
theorem ranked_of_resolve {repository : Repository} {initial : List Source}
    {request : ProfileRequest} {configuration : Configuration}
    (succeeded : (resolve repository initial request).outcome = .ok configuration) :
    ∃ readings,
      Reads repository initial request configuration.known configuration.tree readings ∧
      Reading.Account repository readings (resolve repository initial request).recorded ∧
      (∀ reading ∈ readings, ∀ load ∈ reading.loads repository,
        ∃! find, find.resource = load.1 ∧ reading.Brings repository find) ∧
      ∀ layer ∈ configuration.tree.layers,
        configuration.tree.Ranked repository readings layer := by
  obtain ⟨⟨readings, reads, account⟩, _⟩ :=
    (leaves_resolve repository initial request).of_ok succeeded
  exact ⟨readings, reads, account, fun _ _ _ => Reading.existsUnique_brings,
    fun _ => reads.ranked⟩

/-- Bundles that import each other and themselves are ranked; the one for a profile comes first. -/
theorem ranked_of_resolve_cyclicTable :
    ∃ configuration,
      (resolve (.ofTable cyclicTable) cyclicSources .unset).outcome = .ok configuration ∧
      configuration.tree.layers.map Layer.name = ["b2", "b1", "a1", "a2", "s", "root"] ∧
      ∃ readings,
        Reads (.ofTable cyclicTable) cyclicSources .unset configuration.known configuration.tree
          readings ∧
        ∀ layer ∈ configuration.tree.layers,
          configuration.tree.Ranked (.ofTable cyclicTable) readings layer := by
  have names : (resolve (.ofTable cyclicTable) cyclicSources .unset).outcome.toOption.map
      (fun configuration => configuration.tree.layers.map Layer.name) =
        some ["b2", "b1", "a1", "a2", "s", "root"] := by
    decide +kernel
  have isOk : (resolve (.ofTable cyclicTable) cyclicSources .unset).outcome.isOk = true := by
    decide +kernel
  obtain ⟨configuration, succeeded⟩ := exists_ok_of_isOk isOk
  rw [succeeded] at names
  obtain ⟨readings, reads, _, _, ranked⟩ := ranked_of_resolve succeeded
  exact ⟨configuration, succeeded, Option.some.inj names, readings, reads, ranked⟩

end Configuration

end LayeredConfig
