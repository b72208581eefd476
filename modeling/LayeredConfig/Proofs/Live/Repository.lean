/-
This file imports locations from a repository that may change with every call.

Finders and readers are asked as they are at that time: one after the other whether they take what
is to be found or read, and then the first one that does. An import goes on from there as one from
a fixed repository does, but no two answers need to agree. A repository that never changes is one of
these, and for it both ways to import come to the same.

Whatever the answers are, all finders that an import calls are told what it knows about profiles,
and an import that knows none asks no finder for variants.
-/

import LayeredConfig.Proofs.Import.Gathering
import LayeredConfig.Proofs.Live.Dialogue

namespace LayeredConfig

/-- A repository whose finders and readers may change: what each is like follows from the calls that
were made before. -/
structure LiveRepository where
  finders : List (List Call → Finder)
  readers : List (List Call → Reader)
  policy : MissingPolicy
  stepLimit : Nat

namespace LiveRepository

/-- The repository as it is after some calls. -/
def after (live : LiveRepository) (calls : List Call) : Repository where
  finders := live.finders.map fun finder => finder calls
  readers := live.readers.map fun reader => reader calls
  policy := live.policy
  stepLimit := live.stepLimit

/-! ### Importing -/

/-- The first one that takes what it is asked to take; all up to it are called. -/
def firstTaking {Kind : Type} (asking : Kind → Call) (takes : Kind → Bool) :
    List (List Call → Kind) → Dialogue (Option (List Call → Kind))
  | [] => return none
  | changing :: rest => do
    let calls ← Dialogue.soFar
    Dialogue.call (asking (changing calls))
    if takes (changing calls) then return some changing else firstTaking asking takes rest

/-- The resources of one location. -/
def findOne (live : LiveRepository) (context : FindContext) (location : Location) :
    Dialogue (List Resource) := do
  match ← firstTaking (fun finder : Finder => .offered finder.name context location)
      (fun finder => finder.takes context location) live.finders with
  | none => Dialogue.fail (.unsupported location.text "no resolver accepts this location")
  | some finder => do
    let calls ← Dialogue.soFar
    let base ← Dialogue.ofRun ((live.after calls).findBase (finder calls) context location)
    let calls ← Dialogue.soFar
    let variants ← Dialogue.ofRun (Repository.findSpecific (finder calls) context location)
    return base ++ variants

/-- The resources of a list of locations, in order. -/
def findAll (live : LiveRepository) (context : FindContext) :
    List Location → Dialogue (List Resource)
  | [] => return []
  | location :: rest => do
    let found ← live.findOne context location
    let others ← live.findAll context rest
    return found ++ others

/-- Reads one resource; `none` if it is missing and that is ignored. -/
def readOne (live : LiveRepository) (resource : Resource) : Dialogue (Option Bundle) := do
  match ← firstTaking (fun reader : Reader => .shown reader.name resource)
      (fun reader => reader.takes resource) live.readers with
  | none =>
    Dialogue.fail (.unsupported resource.location.text
      ("no loader can read resource '" ++ resource.id ++ "'"))
  | some reader => do
    let calls ← Dialogue.soFar
    Dialogue.ofRun ((live.after calls).readWith (reader calls) resource)

/-- Reads resources in order, passing over the identities that were seen before. -/
def readAll (live : LiveRepository) :
    List String → List Resource → Dialogue (List (Resource × Bundle))
  | _, [] => return []
  | seen, resource :: rest => do
    if seen.contains resource.id then live.readAll seen rest
    else
      let bundle? ← live.readOne resource
      let others ← live.readAll (resource.id :: seen) rest
      return (bundle?.map fun bundle => (resource, bundle)).toList ++ others

/-- Imports a list of locations: finds their resources and reads those not loaded yet. -/
def gather (live : LiveRepository) (context : FindContext) (locations : List Location)
    (loaded : List String) : Dialogue (List (Resource × Bundle)) := do
  let resources ← live.findAll context locations
  live.readAll loaded resources

end LiveRepository

/-! ### What the calls tell -/

/-- A request of an import that knows what is given about profiles. -/
def Request.Sees (known : Option Profiles) : Request → Prop
  | .find _ context _ => context.known = known
  | .findVariants _ context _ profiles => context.known = known ∧ known = some profiles
  | .read _ _ => True

namespace Repository

variable {repository : Repository} {context : FindContext}

theorem requests_handle (policy : MissingPolicy) (location : Location) (cause : Error) :
    (policy.handle location cause).recorded.requests = [] := by
  unfold MissingPolicy.handle
  split <;> rfl

theorem asks_handle {allowed : Request → Prop} (policy : MissingPolicy) (location : Location)
    (cause : Error) : (policy.handle location cause).Asks allowed :=
  Run.asks_of_nil (requests_handle policy location cause)

theorem asks_findBase (finder : Finder) (location : Location) :
    (repository.findBase finder context location).Asks (Request.Sees context.known) := by
  have first : (Request.find finder.name context location).Sees context.known := rfl
  unfold findBase
  refine (Run.asks_record first).bind fun _ => ?_
  split
  · exact Run.asks_of_nil rfl
  · split
    · exact (asks_handle _ _ _).bind fun _ => Run.asks_of_nil rfl
    · exact Run.asks_of_nil rfl

theorem asks_findSpecific (finder : Finder) (location : Location) :
    (findSpecific finder context location).Asks (Request.Sees context.known) := by
  unfold findSpecific
  split
  · exact Run.asks_of_nil rfl
  · next profiles isKnown =>
    have only : (Request.findVariants finder.name context location profiles).Sees context.known :=
      ⟨rfl, isKnown⟩
    exact (Run.asks_record only).bind fun _ => Run.asks_of_nil rfl

/-- A bundle that a reading comes to is the reader's answer. -/
theorem read_of_readWith {reader : Reader} {resource : Resource} {bundle : Bundle}
    (succeeded : (repository.readWith reader resource).outcome = .ok (some bundle)) :
    reader.read resource = .ok bundle := by
  unfold readWith at succeeded
  obtain ⟨_, _, succeeded⟩ := Run.outcome_bind_eq_ok.mp succeeded
  split at succeeded
  · next answered isAnswered =>
    cases succeeded
    exact isAnswered
  · split at succeeded
    · obtain ⟨_, _, succeeded⟩ := Run.outcome_bind_eq_ok.mp succeeded
      cases succeeded
    · cases succeeded

theorem asks_readWith {known : Option Profiles} (reader : Reader) (resource : Resource) :
    (repository.readWith reader resource).Asks (Request.Sees known) := by
  have first : (Request.read reader.name resource).Sees known := trivial
  unfold readWith
  refine (Run.asks_record first).bind fun _ => ?_
  split
  · exact (Run.asks_of_nil rfl).bind fun _ =>
      (Run.asks_of_nil rfl).bind fun _ => Run.asks_of_nil rfl
  · split
    · exact (asks_handle _ _ _).bind fun _ => Run.asks_of_nil rfl
    · exact Run.asks_of_nil rfl

end Repository

/-- A call of an import that knows what is given about profiles. -/
def Call.Sees (known : Option Profiles) : Call → Prop
  | .offered _ context _ => context.known = known
  | .shown _ _ => True
  | .requested request => request.Sees known
  | .received _ _ => True

namespace LiveRepository

open Dialogue Repository

section Adds

variable {live : LiveRepository} {context : FindContext} {known : Option Profiles}

theorem adds_firstTaking {Kind : Type} {allowed : Call → Prop} {asking : Kind → Call}
    (isAllowed : ∀ kind, allowed (asking kind)) (takes : Kind → Bool)
    (partners : List (List Call → Kind)) :
    (firstTaking asking takes partners).Adds allowed := by
  induction partners with
  | nil => exact adds_pure none
  | cons changing rest inductionHypothesis =>
    refine adds_soFar.bind fun calls => (adds_call (isAllowed (changing calls))).bind fun _ => ?_
    split
    · exact adds_pure _
    · exact inductionHypothesis

/-- A call by which something is looked for, given what is known about profiles. -/
def Searches (known : Option Profiles) (call : Call) : Prop :=
  call.Sees known ∧ call.load? = none

/-- Runs that ask for nothing else and load nothing make such calls. -/
theorem adds_search {First : Type} {run : Run First} (asks : run.Asks (Request.Sees known))
    (silent : run.recorded.loads = []) : (ofRun run).Adds (Searches known) := by
  refine adds_ofRun (fun request isAsked => ⟨asks request isAsked, rfl⟩) fun load isLoad => ?_
  rw [silent] at isLoad
  cases isLoad

theorem adds_findOne (location : Location) :
    (live.findOne context location).Adds (Searches context.known) := by
  have offers (finder : Finder) :
      Searches context.known (.offered finder.name context location) := ⟨rfl, rfl⟩
  refine (adds_firstTaking offers _ _).bind fun taken => ?_
  cases taken with
  | none => exact adds_ofExcept _
  | some finder =>
    refine adds_soFar.bind fun calls =>
      (adds_search (asks_findBase _ location) (loads_findBase _ location)).bind fun base => ?_
    refine adds_soFar.bind fun calls =>
      (adds_search (asks_findSpecific _ location) (loads_findSpecific _ location)).bind fun _ => ?_
    exact adds_pure _

theorem adds_findAll (locations : List Location) :
    (live.findAll context locations).Adds (Searches context.known) := by
  induction locations with
  | nil => exact adds_pure []
  | cons location rest inductionHypothesis =>
    exact (adds_findOne location).bind fun _ => inductionHypothesis.bind fun _ => adds_pure _

theorem adds_readOne (resource : Resource) :
    (live.readOne resource).Adds (Call.Sees known) := by
  have shows (reader : Reader) : (Call.shown reader.name resource).Sees known := trivial
  refine (adds_firstTaking shows _ _).bind fun taken => ?_
  cases taken with
  | none => exact adds_ofExcept _
  | some reader =>
    exact adds_soFar.bind fun calls => adds_ofRun (asks_readWith _ resource) fun _ _ => trivial

theorem adds_readAll (seen : List String) (resources : List Resource) :
    (live.readAll seen resources).Adds (Call.Sees known) := by
  induction resources generalizing seen with
  | nil => exact adds_pure []
  | cons resource rest inductionHypothesis =>
    rw [readAll]
    split
    · exact inductionHypothesis seen
    · exact (adds_readOne resource).bind fun _ =>
        (inductionHypothesis _).bind fun _ => adds_pure _

/-- An import tells all finders that it calls what it knows about profiles. -/
theorem adds_gather (locations : List Location) (loaded : List String) :
    (live.gather context locations loaded).Adds (Call.Sees context.known) :=
  ((adds_findAll locations).mono fun _ searches => searches.1).bind fun resources =>
    adds_readAll loaded resources

end Adds

end LiveRepository

/-! ### What is read -/

namespace LiveRepository

/-- Some reader answered the bundle, at some time, for the resource. -/
def Loads (live : LiveRepository) (load : Resource × Bundle) : Prop :=
  ∃ reader ∈ live.readers, ∃ calls, (reader calls).read load.1 = .ok load.2

section Loads

variable {live : LiveRepository} {calls later : List Call}

theorem mem_of_firstTaking {Kind : Type} {asking : Kind → Call} {takes : Kind → Bool}
    {partners : List (List Call → Kind)} {changing : List Call → Kind}
    (taken : firstTaking asking takes partners calls = (.ok (some changing), later)) :
    changing ∈ partners := by
  induction partners generalizing calls with
  | nil => cases taken
  | cons first rest inductionHypothesis =>
    obtain ⟨_, _, isSoFar, taken⟩ := Dialogue.bind_eq_ok.mp taken
    obtain ⟨_, _, _, taken⟩ := Dialogue.bind_eq_ok.mp taken
    split at taken
    · cases taken
      exact List.mem_cons_self
    · exact List.mem_cons_of_mem _ (inductionHypothesis taken)

theorem loads_readOne {resource : Resource} {bundle : Bundle}
    (succeeded : live.readOne resource calls = (.ok (some bundle), later)) :
    live.Loads (resource, bundle) := by
  obtain ⟨reader?, _, taken, succeeded⟩ := Dialogue.bind_eq_ok.mp succeeded
  cases reader? with
  | none => cases succeeded
  | some reader =>
    obtain ⟨sofar, _, isSoFar, succeeded⟩ := Dialogue.bind_eq_ok.mp succeeded
    have outcome : ((live.after sofar).readWith (reader sofar) resource).outcome =
        .ok (some bundle) := congrArg Prod.fst succeeded
    exact ⟨reader, mem_of_firstTaking taken, sofar, Repository.read_of_readWith outcome⟩

/-- All that an import loads, some reader answered. -/
theorem loads_readAll {seen : List String} {resources : List Resource}
    {gathered : List (Resource × Bundle)}
    (succeeded : live.readAll seen resources calls = (.ok gathered, later)) :
    ∀ load ∈ gathered, live.Loads load := by
  induction resources generalizing seen calls gathered with
  | nil =>
    cases succeeded
    exact nofun
  | cons resource rest inductionHypothesis =>
    rw [readAll] at succeeded
    split at succeeded
    · exact inductionHypothesis succeeded
    · obtain ⟨bundle?, _, isRead, succeeded⟩ := Dialogue.bind_eq_ok.mp succeeded
      obtain ⟨others, _, areOthers, succeeded⟩ := Dialogue.bind_eq_ok.mp succeeded
      cases succeeded
      intro load member
      rcases List.mem_append.mp member with isFirst | isOther
      · obtain ⟨bundle, isBundle, rfl⟩ := Option.map_eq_some_iff.mp (Option.mem_toList.mp isFirst)
        rw [isBundle] at isRead
        exact loads_readOne isRead
      · exact inductionHypothesis areOthers load isOther

theorem loads_gather {context : FindContext} {locations : List Location} {loaded : List String}
    {gathered : List (Resource × Bundle)}
    (succeeded : live.gather context locations loaded calls = (.ok gathered, later)) :
    ∀ load ∈ gathered, live.Loads load := by
  obtain ⟨_, _, _, succeeded⟩ := Dialogue.bind_eq_ok.mp succeeded
  exact loads_readAll succeeded

end Loads

end LiveRepository

/-! ### Repositories that never change -/

namespace Repository

/-- A repository that never changes. -/
def live (repository : Repository) : LiveRepository where
  finders := repository.finders.map fun finder _ => finder
  readers := repository.readers.map fun reader _ => reader
  policy := repository.policy
  stepLimit := repository.stepLimit

theorem after_live (repository : Repository) (calls : List Call) :
    repository.live.after calls = repository := by
  have same {Kind : Type} (kinds : List Kind) :
      (kinds.map fun kind (_ : List Call) => kind).map (fun kind => kind calls) = kinds := by
    rw [List.map_map]
    exact List.map_id kinds
  rw [LiveRepository.after, live, same, same]

open Dialogue LiveRepository

section Mirrors

variable {repository : Repository} {context : FindContext}

theorem mirrors_firstTaking {Kind : Type} {asking : Kind → Call}
    (unjournaled : ∀ kind, (asking kind).isJournaled = false) (takes : Kind → Bool)
    (kinds : List Kind) :
    (firstTaking asking takes (kinds.map fun kind _ => kind)).Mirrors
      (pure ((kinds.find? takes).map fun kind _ => kind)) := by
  induction kinds with
  | nil => exact mirrors_pure none
  | cons kind rest inductionHypothesis =>
    refine mirrors_soFar fun calls => mirrors_call (unjournaled kind) ?_
    by_cases taken : takes kind = true
    · rw [if_pos taken, List.find?_cons_of_pos taken]
      exact mirrors_pure _
    · rw [if_neg taken, List.find?_cons_of_neg taken]
      exact inductionHypothesis

theorem mirrors_findOne (location : Location) :
    (repository.live.findOne context location).Mirrors (repository.findOne context location) := by
  refine (mirrors_firstTaking (fun _ => rfl) _ repository.finders).after_value ?_
  rw [Repository.findOne]
  cases repository.finders.find? fun finder => finder.takes context location with
  | none => exact mirrors_ofRun _
  | some finder =>
    refine mirrors_soFar fun calls => ?_
    rw [after_live]
    exact (mirrors_ofRun _).bind fun base => mirrors_soFar fun _ =>
      (mirrors_ofRun _).bind fun _ => mirrors_pure _

theorem mirrors_findAll (locations : List Location) :
    (repository.live.findAll context locations).Mirrors
      (repository.findAll context locations) := by
  induction locations with
  | nil => exact mirrors_pure []
  | cons location rest inductionHypothesis =>
    exact (mirrors_findOne location).bind fun _ =>
      inductionHypothesis.bind fun _ => mirrors_pure _

theorem mirrors_readOne (resource : Resource) :
    (repository.live.readOne resource).Mirrors (repository.readOne resource) := by
  refine (mirrors_firstTaking (fun _ => rfl) _ repository.readers).after_value ?_
  rw [Repository.readOne]
  cases repository.readers.find? fun reader => reader.takes resource with
  | none => exact mirrors_ofRun _
  | some reader =>
    refine mirrors_soFar fun calls => ?_
    rw [after_live]
    exact mirrors_ofRun _

theorem mirrors_readAll (seen : List String) (resources : List Resource) :
    (repository.live.readAll seen resources).Mirrors (repository.readAll seen resources) := by
  induction resources generalizing seen with
  | nil => exact mirrors_pure []
  | cons resource rest inductionHypothesis =>
    rw [Repository.readAll, LiveRepository.readAll]
    split
    · exact (inductionHypothesis seen).after_note
    · exact (mirrors_readOne resource).bind fun _ =>
        (inductionHypothesis _).bind fun _ => mirrors_pure _

/-- From a repository that never changes, both ways to import come to the same. -/
theorem mirrors_gather (locations : List Location) (loaded : List String) :
    (repository.live.gather context locations loaded).Mirrors
      (repository.gather context locations loaded) :=
  (mirrors_findAll locations).bind fun resources => mirrors_readAll loaded resources

end Mirrors

end Repository

end LayeredConfig
