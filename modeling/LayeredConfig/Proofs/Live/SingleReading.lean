/-
This file says which resources a resolution may read twice.

There is no memory of what was read but the tree itself: an identity counts as loaded if a layer of
the tree comes from it. A bundle with sources leaves such layers and they stay, so no identity is
read again after one. A bundle without sources leaves nothing, and its identity may be read again,
then perhaps with sources. This is so whatever the finders and readers answer each time that they
are asked, and whether or not the resolution succeeds.
-/

import LayeredConfig.Proofs.Import.Table
import LayeredConfig.Proofs.Live.Expansion

namespace LayeredConfig

open LayerTree

/-! ### What a tree remembers -/

namespace LayerTree

theorem isOf_newMarks (tree : LayerTree) (phase : Phase) (gathered : List (Resource × Bundle))
    (id : String) :
    (∃ mark ∈ tree.newMarks phase gathered, mark.isOf id = true) ↔
      ∃ load ∈ gathered, load.1.id = id ∧ load.2.sources ≠ [] := by
  constructor
  · rintro ⟨mark, isNew, isOf⟩
    obtain ⟨load, member, isFind⟩ := mem_newMarks isNew
    exact ⟨load, member, (isOf_of_find isFind id).mp isOf, sources_ne_nil_of_find isFind⟩
  · rintro ⟨load, member, rfl, notEmpty⟩
    obtain ⟨source, isSource⟩ := List.exists_mem_of_ne_nil _ notEmpty
    have isFound :
        (some ⟨load.1, load.2.profileSpecific, phase⟩, some source) ∈ findsOf phase load :=
      List.mem_map_of_mem isSource
    have inFinds := List.mem_flatMap.mpr ⟨load, List.mem_reverse.mpr member, isFound⟩
    rw [← @finds_newMarks tree] at inFinds
    obtain ⟨mark, isNew, isFind⟩ := List.mem_map.mp inFinds
    exact ⟨mark, isNew, (isOf_of_find (isFind ▸ isFound) _).mpr rfl⟩

/-- A step makes the identities loaded that it loads sources of. -/
theorem Stepped.mem_loaded {phase : Phase} {tree next : LayerTree} {layer : Layer}
    {gathered : List (Resource × Bundle)} (stepped : Stepped phase tree next layer gathered)
    {id : String} :
    id ∈ next.loaded ↔
      id ∈ tree.loaded ∨ ∃ load ∈ gathered, load.1.id = id ∧ load.2.sources ≠ [] := by
  rw [LayerTree.mem_loaded, LayerTree.mem_loaded, ← isOf_newMarks tree phase]
  simp only [stepped.mem_marks, or_and_right, exists_or]

end LayerTree

/-- The later load may come after the earlier one: it is of another identity, or the earlier one had
no source. -/
def MayFollow (earlier later : Resource × Bundle) : Prop :=
  earlier.1.id = later.1.id → earlier.2.sources = []

namespace LiveRepository

open Expansion

variable {live : LiveRepository} {initial : List Source} {request : ProfileRequest}
  {known : Option Profiles} {tree next : LayerTree} {layer : Layer} {expansions : List Expansion}
  {made : List Call}

/-! ### Along a resolution -/

/-- A step attaches what was loaded since the tree before it, none of it from an identity that is
loaded already. -/
theorem Comes.gathers (comes : live.Comes initial request known tree expansions)
    (selected : tree.next? known = some layer)
    (worked : live.work known tree layer (callsOf expansions) =
      (.ok next, callsOf (expansions ++ ofWork known layer made))) :
    ∃ gathered, Stepped (Phase.ofKnown known) tree next layer gathered ∧
      Call.loadsOf (callsOf (expansions ++ ofWork known layer made)) =
        Call.loadsOf (callsOf expansions) ++ gathered ∧
      (gathered.map (·.1.id)).Nodup ∧ ∀ load ∈ gathered, load.1.id ∉ tree.loaded := by
  obtain ⟨gathered, stepped, _, once⟩ := stepped_with_loads comes.sound selected worked
  have recorded := once.recorded
  rw [worked] at recorded
  exact ⟨gathered, stepped, recorded, once.distinct, once.fresh⟩

/-- An identity counts as loaded just if one of its loads had a source. -/
theorem Comes.mem_loaded (comes : live.Comes initial request known tree expansions) {id : String} :
    id ∈ tree.loaded ↔
      ∃ load ∈ Call.loadsOf (callsOf expansions), load.1.id = id ∧ load.2.sources ≠ [] := by
  induction comes with
  | start bound =>
    rw [LayerTree.mem_loaded]
    constructor
    · rintro ⟨mark, member, isOf⟩
      rw [Mark.isOf, Mark.id?, origin_start bound member] at isOf
      cases isOf
    · rintro ⟨load, member, _⟩
      cases member
  | step comes selected worked inductionHypothesis =>
    obtain ⟨gathered, stepped, recorded, _⟩ := comes.gathers selected worked
    rw [recorded, stepped.mem_loaded, inductionHypothesis]
    simp only [List.mem_append, or_and_right, exists_or]
  | learn _ _ _ inductionHypothesis => exact inductionHypothesis

/-- What is loaded in the work on a layer may follow what was loaded before it. -/
theorem Comes.mayFollow_work (comes : live.Comes initial request known tree expansions)
    (earlier : (Call.loadsOf (callsOf expansions)).Pairwise MayFollow) (layer : Layer) :
    (Call.loadsOf (live.work known tree layer (callsOf expansions)).2).Pairwise MayFollow := by
  obtain ⟨loads, once⟩ := loads_work live known tree layer (callsOf expansions)
  rw [once.recorded]
  refine List.pairwise_append.mpr ⟨earlier, ?_, fun first isFirst second isSecond same => ?_⟩
  · exact (List.pairwise_map.mp once.distinct).imp fun differ same => absurd same differ
  · by_contra notEmpty
    exact once.fresh second isSecond (comes.mem_loaded.mpr ⟨first, isFirst, same, notEmpty⟩)

theorem Comes.mayFollow (comes : live.Comes initial request known tree expansions) :
    (Call.loadsOf (callsOf expansions)).Pairwise MayFollow := by
  induction comes with
  | start => exact .nil
  | @step known tree next layer expansions made comes selected worked inductionHypothesis =>
    have follows := comes.mayFollow_work inductionHypothesis layer
    rwa [worked] at follows
  | learn _ _ _ inductionHypothesis => exact inductionHypothesis

theorem Breaks.mayFollow {cause : Error} (breaks : live.Breaks initial request cause expansions) :
    (Call.loadsOf (callsOf expansions)).Pairwise MayFollow := by
  cases breaks with
  | start => exact .nil
  | @step known tree layer cause expansions made comes selected failed =>
    have follows := comes.mayFollow_work comes.mayFollow layer
    rwa [failed] at follows
  | limit comes => exact comes.mayFollow
  | learn comes => exact comes.mayFollow
  | check comes => exact comes.mayFollow

/-- Whatever a resolution loads may follow what it loaded before, however it ends. -/
theorem mayFollow_of_resolve (live : LiveRepository) (initial : List Source)
    (request : ProfileRequest) :
    (Call.loadsOf (live.resolve initial request []).2).Pairwise MayFollow := by
  have leaves := leaves_resolve live initial request
  rcases ended : live.resolve initial request [] with ⟨cause | configuration, calls⟩
  · obtain ⟨expansions, breaks, rfl⟩ := leaves.of_eq_error ended
    exact breaks.mayFollow
  · obtain ⟨⟨expansions, comes, rfl⟩, _⟩ := leaves.of_eq_ok ended
    exact comes.mayFollow

/-! ### Reading again -/

/-- In every resolution, an identity is read again only if all its earlier bundles had no source;
and at every tree that the resolution comes to, it passes over the identities of which a source was
loaded, and over no others. The finders and readers may answer as they like each time. -/
theorem read_again_only_if_empty (live : LiveRepository) (initial : List Source)
    (request : ProfileRequest) :
    ((Call.loadsOf (live.resolve initial request []).2).Pairwise fun earlier later =>
      earlier.1.id = later.1.id → earlier.2.sources = []) ∧
    ∀ known tree expansions, live.Comes initial request known tree expansions → ∀ id,
      id ∈ tree.loaded ↔
        ∃ load ∈ Call.loadsOf (callsOf expansions), load.1.id = id ∧ load.2.sources ≠ [] :=
  ⟨mayFollow_of_resolve live initial request, fun _ _ _ comes _ => comes.mem_loaded⟩

/-- Even from a repository that never changes, a bundle without sources is read in both phases. -/
theorem empty_bundle_read_twice :
    ¬ ∀ (repository : Repository) (initial : List Source) (request : ProfileRequest),
      ((Call.loadsOf (repository.live.resolve initial request []).2).map (·.1.id)).Nodup := by
  intro readOnce
  have := readOnce (.ofTable [("a", ⟨[], false⟩)]) [.ofPairs "s" [("config.import", "a")]] .unset
  revert this
  decide +kernel

/-- Two bundles, which have no sources until one of them was read. -/
def fillingBundles (calls : List Call) : List (String × Bundle) :=
  let sources := if (Call.loadsOf calls).isEmpty then [] else [.ofPairs "x" [], .ofPairs "y" []]
  [("a", ⟨sources, false⟩), ("b", ⟨sources, false⟩)]

/-- A repository that changes with the first reading. -/
def fillingTable : LiveRepository where
  finders := [fun calls => Repository.tableFinder (fillingBundles calls)]
  readers := [fun calls => Repository.tableReader (fillingBundles calls)]
  policy := .fail
  stepLimit := Repository.usualStepLimit

/-- Two sources that both import the first bundle. -/
def importingTwice : List Source :=
  [.ofPairs "s" [("config.import", "a,b")], .ofPairs "t" [("config.import", "a")]]

/-- The first bundle has no sources when it is read for the first time, and is read once more. -/
example : (Call.loadsOf (fillingTable.resolve importingTwice .unset []).2).map
    (fun load => (load.1.id, load.2.sources.map Source.name)) =
      [("a", []), ("b", ["x", "y"]), ("a", ["x", "y"])] := by
  decide +kernel

end LiveRepository

end LayeredConfig
