/-
This file says what an import loads from a repository that may change.

To find resources loads nothing. To read them loads each identity at most once, and none that was
seen before, up to the end and also up to a failure; and an import that succeeds results in what it
loaded. This holds whatever the finders and readers answer, since the import itself looks at the
identities and does not rely on two answers to agree. So it also holds of a repository that never
changes.
-/

import LayeredConfig.Proofs.Live.Resolution

namespace LayeredConfig

namespace Dialogue

variable {First : Type} {dialogue : Dialogue First}

theorem loads_of_adds (silent : dialogue.Adds fun call => call.load? = none) (calls : List Call) :
    Call.loadsOf (dialogue calls).2 = Call.loadsOf calls := by
  obtain ⟨made, added, areSilent⟩ := silent calls
  rw [added, Call.loadsOf_append, show Call.loadsOf made = [] from
    List.filterMap_eq_nil_iff.mpr areSilent, List.append_nil]

/-- After the given calls, the dialogue loads no identity that was seen before, and none twice. -/
structure LoadsOnce (dialogue : Dialogue First) (seen : List String) (calls : List Call)
    (loads : List (Resource × Bundle)) : Prop where
  recorded : Call.loadsOf (dialogue calls).2 = Call.loadsOf calls ++ loads
  distinct : (loads.map (·.1.id)).Nodup
  fresh : ∀ load ∈ loads, load.1.id ∉ seen

theorem loadsOnce_nil {seen : List String} {calls : List Call}
    (silent : Call.loadsOf (dialogue calls).2 = Call.loadsOf calls) :
    dialogue.LoadsOnce seen calls [] :=
  ⟨silent.trans (List.append_nil _).symm, List.nodup_nil, nofun⟩

end Dialogue

namespace LiveRepository

open Dialogue

variable {live : LiveRepository} {calls : List Call}

/-! ### Reading -/

/-- To read one resource loads its bundle, or nothing. -/
theorem recorded_readOne (live : LiveRepository) (resource : Resource) (calls : List Call) :
    Call.loadsOf (live.readOne resource calls).2 =
      Call.loadsOf calls ++ Repository.loadOf resource (live.readOne resource calls).1 := by
  have shows (reader : Reader) : (Call.shown reader.name resource).load? = none := rfl
  have silent :=
    loads_of_adds (adds_firstTaking shows (fun reader => reader.takes resource) live.readers) calls
  rcases taken : firstTaking (fun reader : Reader => .shown reader.name resource)
    (fun reader => reader.takes resource) live.readers calls with ⟨cause | reader?, later⟩
  · rw [taken] at silent
    rw [readOne, bind_of_error taken, silent]
    exact (List.append_nil _).symm
  · rw [taken] at silent
    rw [readOne, bind_of_ok taken, ← silent]
    cases reader? with
    | none =>
      show Call.loadsOf (Dialogue.ofExcept _ later).2 = _
      rw [ofExcept_eq]
      exact (List.append_nil _).symm
    | some reader =>
      show Call.loadsOf (later ++ _) = _
      rw [Call.loadsOf_append, Call.loadsOf_ofJournal, Repository.loads_readWith]
      rfl

/-- A resource that is new is read, and after it others of which none has its identity. -/
theorem once_of_unseen {seen : List String} {resource : Resource} (unseen : resource.id ∉ seen)
    {loads : List (Resource × Bundle)} (distinct : (loads.map (·.1.id)).Nodup)
    (fresh : ∀ load ∈ loads, load.1.id ∉ resource.id :: seen) (bundle? : Option Bundle) :
    ((Repository.loadOf resource (.ok bundle?) ++ loads).map (·.1.id)).Nodup ∧
      ∀ load ∈ Repository.loadOf resource (.ok bundle?) ++ loads, load.1.id ∉ seen := by
  have others : ∀ load ∈ loads, load.1.id ∉ seen :=
    fun load member wasSeen => fresh load member (List.mem_cons_of_mem _ wasSeen)
  cases bundle? with
  | none => exact ⟨distinct, others⟩
  | some bundle =>
    refine ⟨List.nodup_cons.mpr ⟨fun again => ?_, distinct⟩,
      List.forall_mem_cons.mpr ⟨unseen, others⟩⟩
    obtain ⟨load, member, same⟩ := List.mem_map.mp again
    exact fresh load member (same ▸ List.mem_cons_self)

/-- Reading passes over the identities that were seen, also over those that it has read itself. -/
theorem reads_readAll (live : LiveRepository) (seen : List String) (resources : List Resource)
    (calls : List Call) :
    ∃ loads, (live.readAll seen resources).LoadsOnce seen calls loads ∧
      ∀ gathered, (live.readAll seen resources calls).1 = .ok gathered → gathered = loads := by
  induction resources generalizing seen calls with
  | nil => exact ⟨[], loadsOnce_nil rfl, fun gathered same => (Except.ok.inj same).symm⟩
  | cons resource rest inductionHypothesis =>
    rw [readAll]
    by_cases isSeen : resource.id ∈ seen
    · rw [if_pos (List.contains_iff_mem.mpr isSeen)]
      exact inductionHypothesis seen calls
    · rw [if_neg (mt List.contains_iff_mem.mp isSeen)]
      have first := recorded_readOne live resource calls
      rcases ended : live.readOne resource calls with ⟨cause | bundle?, middle⟩
      · rw [ended] at first
        refine ⟨[], loadsOnce_nil ?_, fun gathered succeeded => ?_⟩
        · rw [bind_of_error ended]
          exact first.trans (List.append_nil _)
        · rw [bind_of_error ended] at succeeded
          cases succeeded
      · rw [ended] at first
        obtain ⟨loads, once, result⟩ := inductionHypothesis (resource.id :: seen) middle
        obtain ⟨distinct, fresh⟩ := once_of_unseen isSeen once.distinct once.fresh bundle?
        refine ⟨_, ⟨?_, distinct, fresh⟩, fun gathered succeeded => ?_⟩
        · rw [bind_of_ok ended, bind_pure_eq, once.recorded,
            show Call.loadsOf middle = _ from first, List.append_assoc]
        · rw [bind_of_ok ended, bind_pure_eq] at succeeded
          obtain ⟨others, areOthers, rfl⟩ := map_eq_ok.mp succeeded
          rw [result others areOthers]
          cases bundle? <;> rfl

/-! ### Importing -/

/-- An import loads nothing that was loaded before and nothing twice, and if it succeeds, it results
in what it loaded. -/
theorem reads_gather (live : LiveRepository) (context : FindContext) (locations : List Location)
    (loaded : List String) (calls : List Call) :
    ∃ loads, (live.gather context locations loaded).LoadsOnce loaded calls loads ∧
      ∀ gathered, (live.gather context locations loaded calls).1 = .ok gathered →
        gathered = loads := by
  have silent : Call.loadsOf (live.findAll context locations calls).2 = Call.loadsOf calls :=
    loads_of_adds ((adds_findAll locations).mono fun _ searches => searches.2) calls
  rcases ended : live.findAll context locations calls with ⟨cause | resources, middle⟩
  · rw [ended] at silent
    have failed : live.gather context locations loaded calls = (.error cause, middle) :=
      bind_of_error ended
    refine ⟨[], loadsOnce_nil ?_, fun gathered succeeded => ?_⟩
    · rw [failed]
      exact silent
    · rw [failed] at succeeded
      cases succeeded
  · rw [ended] at silent
    have goesOn : live.gather context locations loaded calls =
        live.readAll loaded resources middle := bind_of_ok ended
    obtain ⟨loads, once, result⟩ := reads_readAll live loaded resources middle
    refine ⟨loads, ⟨?_, once.distinct, once.fresh⟩, fun gathered succeeded => ?_⟩
    · rw [goesOn, once.recorded]
      exact congrArg (· ++ loads) silent
    · rw [goesOn] at succeeded
      exact result gathered succeeded

section Work

variable {known : Option Profiles} {tree : LayerTree} {layer : Layer}

/-- To bind a layer loads nothing. -/
theorem loads_work_of_found (isFound : layer.role.isFound = true) :
    (live.work known tree layer).LoadsOnce tree.loaded calls [] := by
  refine loadsOnce_nil ?_
  rw [work_of_found isFound]

/-- To read the imports of a layer loads what is gathered for it. -/
theorem loads_work_of_ready (live : LiveRepository) (known : Option Profiles) (tree : LayerTree)
    (ready : layer.role.isFound = false) (calls : List Call) :
    ∃ loads, (live.work known tree layer).LoadsOnce tree.loaded calls loads ∧
      ∀ gathered, (live.gatherFor known tree layer calls).1 = .ok gathered → gathered = loads := by
  obtain ⟨loads, once, result⟩ :=
    reads_gather live ⟨layer.resource?, known⟩ layer.imports tree.loaded calls
  refine ⟨loads, ⟨?_, once.distinct, once.fresh⟩, result⟩
  rw [work_of_ready ready]
  exact once.recorded

/-- The work on a layer loads nothing that is in the tree and nothing twice, whether or not it
succeeds. -/
theorem loads_work (live : LiveRepository) (known : Option Profiles) (tree : LayerTree)
    (layer : Layer) (calls : List Call) :
    ∃ loads, (live.work known tree layer).LoadsOnce tree.loaded calls loads := by
  cases isFound : layer.role.isFound with
  | true => exact ⟨[], loads_work_of_found isFound⟩
  | false =>
    obtain ⟨loads, once, _⟩ := loads_work_of_ready live known tree isFound calls
    exact ⟨loads, once⟩

end Work

end LiveRepository

/-! ### Repositories that never change -/

section Mirrors

variable {repository : Repository}

/-- What a dialogue loads once, the run that it mirrors loads. -/
theorem Dialogue.LoadsOnce.loads_eq {Result : Type} {dialogue : Dialogue Result}
    {run : Run Result} {seen : List String} {loads : List (Resource × Bundle)}
    (once : dialogue.LoadsOnce seen [] loads) (mirrors : dialogue.Mirrors run) :
    run.recorded.loads = loads :=
  (mirrors.loads []).symm.trans once.recorded

/-- An import loads nothing twice. -/
theorem Repository.gather_distinct {context : FindContext} (locations : List Location)
    (loaded : List String) :
    ((repository.gather context locations loaded).recorded.loads.map (·.1.id)).Nodup := by
  obtain ⟨loads, once, _⟩ := repository.live.reads_gather context locations loaded []
  rw [once.loads_eq (mirrors_gather locations loaded)]
  exact once.distinct

/-- A step loads nothing that is in the tree, whether or not it succeeds. -/
theorem LayerTree.work_fresh {known : Option Profiles} {tree : LayerTree} {layer : Layer} :
    ∀ load ∈ (tree.work repository known layer).recorded.loads, load.1.id ∉ tree.loaded := by
  obtain ⟨loads, once⟩ := repository.live.loads_work known tree layer []
  rw [once.loads_eq (Repository.mirrors_work tree layer)]
  exact once.fresh

end Mirrors

end LayeredConfig
