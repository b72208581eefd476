/-
This file says exactly what an import comes to.

An import asks for each location in its turn, first for what counts for all profiles and then for
variants, and so gets a row of resources. It reads a resource of this row if it is the first one of
its identity and if the identity was not loaded before, again one after the other. What is read are
the results, except that a miss which is ignored yields none. The finders and readers may answer as
they like each time they are asked.
-/

import LayeredConfig.Proofs.Live.Repository

namespace LayeredConfig

/-! ### Answers -/

/-- What an answer about a location counts as: its value, or nothing if it is a miss that is
ignored. An import does not go on after any other error. -/
def MissingPolicy.Accepts {Value : Type} (policy : MissingPolicy) (location : Location) :
    Except Error Value → Option Value → Prop
  | .ok value, accepted => accepted = some value
  | .error cause, accepted =>
    accepted = none ∧ cause.isMissing = true ∧ (policy = .ignore ∨ location.optional = true)

theorem MissingPolicy.handle_eq_ok {policy : MissingPolicy} {location : Location} {cause : Error} :
    (policy.handle location cause).outcome = .ok () ↔
      policy = .ignore ∨ location.optional = true := by
  unfold handle
  cases policy <;> cases location.optional <;> simp

/-- An error of an answer is no failure exactly if it is a miss that is ignored. -/
theorem MissingPolicy.tolerate_eq_ok {Value : Type} {policy : MissingPolicy} {location : Location}
    {cause : Error} {fallback value : Value} :
    (if cause.isMissing then policy.handle location cause >>= fun _ => pure fallback
      else Run.fail cause : Run Value).outcome = .ok value ↔
      fallback = value ∧ cause.isMissing = true ∧
        (policy = .ignore ∨ location.optional = true) := by
  by_cases isMissing : cause.isMissing = true
  · simp only [isMissing, if_true, Run.outcome_bind_eq_ok, true_and]
    constructor
    · rintro ⟨_, handled, same⟩
      exact ⟨Except.ok.inj same, handle_eq_ok.mp handled⟩
    · rintro ⟨rfl, ignored⟩
      exact ⟨(), handle_eq_ok.mpr ignored, rfl⟩
  · simp [isMissing]

/-- Whatever is done about an error of an answer, nobody is called for it. -/
theorem MissingPolicy.calls_tolerate {Value : Type} {policy : MissingPolicy}
    {location : Location} {cause : Error} {fallback : Value} :
    Call.ofJournal (if cause.isMissing then policy.handle location cause >>= fun _ => pure fallback
      else Run.fail cause : Run Value).recorded = [] := by
  have handled : Call.ofJournal (policy.handle location cause).recorded = [] := by
    unfold handle
    split <;> rfl
  split
  · rw [Run.calls_bind, handled]
    split <;> rfl
  · rfl

/-- What follows an event decides what a run comes to. -/
theorem Run.outcome_after_record {Value : Type} {event : Event} {next : Unit → Run Value} :
    (Run.record event >>= next).outcome = (next ()).outcome := by
  rw [outcome_bind, outcome_record]
  rfl

theorem Run.calls_of_record {Value : Type} {event : Event} {next : Unit → Run Value} :
    Call.ofJournal (Run.record event >>= next).recorded =
      (Call.ofEvent? event).toList ++ Call.ofJournal (next ()).recorded := by
  rw [calls_bind, recorded_record, outcome_record]
  cases event <;> rfl

namespace Repository

variable {repository : Repository} {context : FindContext} {location : Location}

theorem findBase_eq_ok {finder : Finder} {found : List Resource} :
    (repository.findBase finder context location).outcome = .ok found ↔
      ∃ accepted, repository.policy.Accepts location (finder.find context location) accepted ∧
        accepted.getD [] = found := by
  unfold findBase
  rw [Run.outcome_after_record]
  cases finder.find context location with
  | ok answer => simp [MissingPolicy.Accepts]
  | error cause =>
    refine MissingPolicy.tolerate_eq_ok.trans ?_
    simp only [MissingPolicy.Accepts]
    constructor
    · rintro ⟨rfl, isMissing, ignored⟩
      exact ⟨none, ⟨rfl, isMissing, ignored⟩, rfl⟩
    · rintro ⟨_, ⟨rfl, isMissing, ignored⟩, same⟩
      exact ⟨same, isMissing, ignored⟩

theorem calls_findBase {finder : Finder} :
    Call.ofJournal (repository.findBase finder context location).recorded =
      [.requested (.find finder.name context location)] := by
  unfold findBase
  rw [Run.calls_of_record]
  cases finder.find context location with
  | ok found => rfl
  | error cause => exact congrArg (List.cons _) MissingPolicy.calls_tolerate

/-- Reading a resource comes to what the answer of the reader counts as. -/
theorem readWith_eq_ok {reader : Reader} {resource : Resource} {bundle? : Option Bundle} :
    (repository.readWith reader resource).outcome = .ok bundle? ↔
      repository.policy.Accepts resource.location (reader.read resource) bundle? := by
  unfold readWith
  rw [Run.outcome_after_record]
  cases reader.read resource with
  | ok bundle =>
    show Run.outcome (_ >>= _) = _ ↔ _
    rw [Run.outcome_after_record, Run.debug, Run.note, Run.outcome_after_record, Run.outcome_pure,
      Except.ok.injEq, MissingPolicy.Accepts, eq_comm]
  | error cause =>
    refine MissingPolicy.tolerate_eq_ok.trans ?_
    rw [MissingPolicy.Accepts, @eq_comm _ none]

/-- The reader is called, and what its answer counts as comes back. -/
theorem calls_readWith {reader : Reader} {resource : Resource} {bundle? : Option Bundle}
    (accepted : repository.policy.Accepts resource.location (reader.read resource) bundle?) :
    Call.ofJournal (repository.readWith reader resource).recorded =
      .requested (.read reader.name resource) :: (bundle?.map (Call.received resource)).toList := by
  unfold readWith
  rw [Run.calls_of_record]
  cases answered : reader.read resource with
  | ok bundle =>
    rw [answered] at accepted
    rw [show bundle? = some bundle from accepted]
    rfl
  | error cause =>
    rw [answered] at accepted
    rw [accepted.1]
    exact congrArg (List.cons _) MissingPolicy.calls_tolerate

end Repository

/-! ### One after the other -/

namespace Dialogue

theorem ofRun_eq_ok {Value : Type} {run : Run Value} {calls later : List Call} {value : Value} :
    ofRun run calls = (.ok value, later) ↔
      run.outcome = .ok value ∧ calls ++ Call.ofJournal run.recorded = later := by
  rw [ofRun, Prod.mk.injEq]

/-- Items are gone through in their order: each leads to one answer, and each comes after the calls
of those before it. -/
inductive InTurn {Item Answer : Type} (step : Item → List Call → Answer → List Call → Prop) :
    List Item → List Call → List Answer → List Call → Prop
  | done {calls : List Call} : InTurn step [] calls [] calls
  | next {item : Item} {rest : List Item} {answer : Answer} {answers : List Answer}
    {calls middle later : List Call} (first : step item calls answer middle)
    (others : InTurn step rest middle answers later) :
    InTurn step (item :: rest) calls (answer :: answers) later

end Dialogue

namespace LiveRepository

variable {live : LiveRepository} {context : FindContext} {location : Location}
  {calls later : List Call}

/-! ### Finding -/

/-- What a finder answers about variants: none while profiles are unknown, for then it is not
asked. -/
inductive Varied (finder : List Call → Finder) (context : FindContext) (location : Location)
    (calls : List Call) : List Resource → List Call → Prop
  | unknown (isUnknown : context.known = none) : Varied finder context location calls [] calls
  | known {profiles : Profiles} {variants : List Resource}
    (isKnown : context.known = some profiles)
    (answered : (finder calls).findVariants context location profiles = .ok variants) :
    Varied finder context location calls variants
      (calls ++ [.requested (.findVariants (finder calls).name context location profiles)])

/-- What one location leads to: what counts for all profiles, with nothing for a miss that is
ignored, and after it the variants. The first finder that takes the location is asked for both. -/
inductive Found (live : LiveRepository) (context : FindContext) (location : Location)
    (calls : List Call) : List Resource → List Call → Prop
  | intro {finder : List Call → Finder} {asked later : List Call} {base? : Option (List Resource)}
    {variants : List Resource}
    (taken : firstTaking (fun finder : Finder => .offered finder.name context location)
      (fun finder => finder.takes context location) live.finders calls = (.ok (some finder), asked))
    (accepted : live.policy.Accepts location ((finder asked).find context location) base?)
    (varied : Varied finder context location
      (asked ++ [.requested (.find (finder asked).name context location)]) variants later) :
    Found live context location calls (base?.getD [] ++ variants) later

theorem findBase_eq_ok {finder : Finder} {base : List Resource} :
    Dialogue.ofRun ((live.after calls).findBase finder context location) calls =
        (.ok base, later) ↔
      ∃ base?, live.policy.Accepts location (finder.find context location) base? ∧
        base?.getD [] = base ∧
        calls ++ [.requested (.find finder.name context location)] = later := by
  rw [Dialogue.ofRun_eq_ok, Repository.findBase_eq_ok, Repository.calls_findBase]
  constructor
  · rintro ⟨⟨base?, accepted, same⟩, sameCalls⟩
    exact ⟨base?, accepted, same, sameCalls⟩
  · rintro ⟨base?, accepted, same, sameCalls⟩
    exact ⟨⟨base?, accepted, same⟩, sameCalls⟩

theorem findSpecific_eq_ok {finder : List Call → Finder} {variants : List Resource} :
    Dialogue.ofRun (Repository.findSpecific (finder calls) context location) calls =
        (.ok variants, later) ↔
      Varied finder context location calls variants later := by
  rw [Repository.findSpecific]
  split
  · next isUnknown =>
    constructor
    · intro succeeded
      obtain ⟨same, rfl⟩ := Dialogue.ofExcept_eq_ok.mp succeeded
      cases same
      exact .unknown isUnknown
    · intro varied
      cases varied with
      | unknown => exact Dialogue.ofExcept_eq_ok.mpr ⟨rfl, rfl⟩
      | known isKnown => cases isUnknown.symm.trans isKnown
  · next profiles isKnown =>
    rw [Dialogue.ofRun_eq_ok, Run.outcome_after_record, Run.outcome_ofExcept, Run.calls_of_record]
    constructor
    · rintro ⟨answered, rfl⟩
      exact .known isKnown answered
    · intro varied
      cases varied with
      | unknown isUnknown => cases isUnknown.symm.trans isKnown
      | known isSame answered =>
        cases isSame.symm.trans isKnown
        exact ⟨answered, rfl⟩

theorem findOne_eq_ok {found : List Resource} :
    live.findOne context location calls = (.ok found, later) ↔
      live.Found context location calls found later := by
  constructor
  · intro succeeded
    obtain ⟨finder?, asked, taken, succeeded⟩ := Dialogue.bind_eq_ok.mp succeeded
    cases finder? with
    | none => cases succeeded
    | some finder =>
      obtain ⟨base, between, isBase, succeeded⟩ :=
        Dialogue.bind_eq_ok.mp (Dialogue.of_soFar_bind succeeded)
      obtain ⟨base?, accepted, rfl, rfl⟩ := findBase_eq_ok.mp isBase
      obtain ⟨variants, _, areVariants, succeeded⟩ :=
        Dialogue.bind_eq_ok.mp (Dialogue.of_soFar_bind succeeded)
      cases succeeded
      exact .intro taken accepted (findSpecific_eq_ok.mp areVariants)
  · rintro ⟨taken, accepted, varied⟩
    refine Dialogue.bind_eq_ok.mpr ⟨_, _, taken, ?_⟩
    refine Dialogue.bind_eq_ok.mpr ⟨_, _, rfl, ?_⟩
    refine Dialogue.bind_eq_ok.mpr ⟨_, _, findBase_eq_ok.mpr ⟨_, accepted, rfl, rfl⟩, ?_⟩
    refine Dialogue.bind_eq_ok.mpr ⟨_, _, rfl, ?_⟩
    exact Dialogue.bind_eq_ok.mpr ⟨_, _, findSpecific_eq_ok.mpr varied, rfl⟩

/-- The locations lead, in their order, to the resources in a row. -/
theorem findAll_eq_ok {locations : List Location} {resources : List Resource} :
    live.findAll context locations calls = (.ok resources, later) ↔
      ∃ found, Dialogue.InTurn (live.Found context) locations calls found later ∧
        found.flatten = resources := by
  induction locations generalizing calls resources with
  | nil =>
    constructor
    · intro succeeded
      cases succeeded
      exact ⟨[], .done, rfl⟩
    · rintro ⟨_, ⟨⟩, rfl⟩
      rfl
  | cons location rest inductionHypothesis =>
    constructor
    · intro succeeded
      obtain ⟨here, _, isHere, succeeded⟩ := Dialogue.bind_eq_ok.mp succeeded
      obtain ⟨others, _, areOthers, succeeded⟩ := Dialogue.bind_eq_ok.mp succeeded
      cases succeeded
      obtain ⟨found, inTurn, rfl⟩ := inductionHypothesis.mp areOthers
      exact ⟨here :: found, .next (findOne_eq_ok.mp isHere) inTurn, rfl⟩
    · rintro ⟨_, _ | ⟨first, inTurn⟩, rfl⟩
      refine Dialogue.bind_eq_ok.mpr ⟨_, _, findOne_eq_ok.mpr first, ?_⟩
      exact Dialogue.bind_eq_ok.mpr ⟨_, _, inductionHypothesis.mpr ⟨_, inTurn, rfl⟩, rfl⟩

/-! ### Reading -/

/-- What reading one resource comes to: the bundle that the first reader that takes the resource
answers and that is then received, or nothing for a miss that is ignored. -/
inductive Obtained (live : LiveRepository) (resource : Resource) (calls : List Call) :
    Option Bundle → List Call → Prop
  | intro {reader : List Call → Reader} {asked : List Call} {bundle? : Option Bundle}
    (taken : firstTaking (fun reader : Reader => .shown reader.name resource)
      (fun reader => reader.takes resource) live.readers calls = (.ok (some reader), asked))
    (accepted : live.policy.Accepts resource.location ((reader asked).read resource) bundle?) :
    Obtained live resource calls bundle?
      (asked ++ .requested (.read (reader asked).name resource) ::
        (bundle?.map (Call.received resource)).toList)

theorem readOne_eq_ok {resource : Resource} {bundle? : Option Bundle} :
    live.readOne resource calls = (.ok bundle?, later) ↔
      live.Obtained resource calls bundle? later := by
  constructor
  · intro succeeded
    obtain ⟨reader?, asked, taken, succeeded⟩ := Dialogue.bind_eq_ok.mp succeeded
    cases reader? with
    | none => cases succeeded
    | some reader =>
      obtain ⟨isRead, rfl⟩ := Dialogue.ofRun_eq_ok.mp (Dialogue.of_soFar_bind succeeded)
      have accepted := Repository.readWith_eq_ok.mp isRead
      rw [Repository.calls_readWith accepted]
      exact .intro taken accepted
  · rintro ⟨taken, accepted⟩
    refine Dialogue.bind_eq_ok.mpr ⟨_, _, taken, ?_⟩
    refine Dialogue.bind_eq_ok.mpr ⟨_, _, rfl, Dialogue.ofRun_eq_ok.mpr ?_⟩
    exact ⟨Repository.readWith_eq_ok.mpr accepted, by rw [Repository.calls_readWith accepted]⟩

/-! ### First occurrences -/

/-- The resources whose identity was not seen before, each identity only where it occurs first. -/
def fresh (seen : List String) (resources : List Resource) : List Resource :=
  (resources.filter fun resource => !seen.contains resource.id).eraseDupsBy
    fun other resource => other.id == resource.id

theorem fresh_of_seen {seen : List String} {resource : Resource} (rest : List Resource)
    (isSeen : resource.id ∈ seen) : fresh seen (resource :: rest) = fresh seen rest := by
  rw [fresh, List.filter_cons_of_neg (by simp [isSeen]), fresh]

/-- After a resource that is new, its identity counts as seen. -/
theorem fresh_of_unseen {seen : List String} {resource : Resource} (rest : List Resource)
    (unseen : resource.id ∉ seen) :
    fresh seen (resource :: rest) = resource :: fresh (resource.id :: seen) rest := by
  rw [fresh, List.filter_cons_of_pos (by simp [unseen]), List.eraseDupsBy_cons,
    List.filter_filter, fresh]
  congr 3
  funext other
  rw [List.contains_cons]
  cases other.id == resource.id <;> simp

theorem not_mem_of_fresh {seen : List String} {resources : List Resource} {resource : Resource}
    (member : resource ∈ fresh seen resources) : resource.id ∉ seen := by
  induction resources generalizing seen with
  | nil => cases member
  | cons first rest inductionHypothesis =>
    by_cases isSeen : first.id ∈ seen
    · rw [fresh_of_seen rest isSeen] at member
      exact inductionHypothesis member
    · rw [fresh_of_unseen rest isSeen, List.mem_cons] at member
      rcases member with rfl | inRest
      · exact isSeen
      · exact fun wasSeen => inductionHypothesis inRest (List.mem_cons_of_mem _ wasSeen)

theorem nodup_fresh (seen : List String) (resources : List Resource) :
    ((fresh seen resources).map Resource.id).Nodup := by
  induction resources generalizing seen with
  | nil => exact List.nodup_nil
  | cons resource rest inductionHypothesis =>
    by_cases isSeen : resource.id ∈ seen
    · rw [fresh_of_seen rest isSeen]
      exact inductionHypothesis seen
    · rw [fresh_of_unseen rest isSeen]
      refine List.nodup_cons.mpr ⟨fun again => ?_, inductionHypothesis _⟩
      obtain ⟨other, member, same⟩ := List.mem_map.mp again
      exact not_mem_of_fresh member (same ▸ List.mem_cons_self)

/-- The resources with the bundles that reading each of them came to, without those of which it
came to nothing. -/
def loadsOf (resources : List Resource) (bundles : List (Option Bundle)) :
    List (Resource × Bundle) :=
  (resources.zip bundles).filterMap fun (resource, bundle?) =>
    bundle?.map fun bundle => (resource, bundle)

theorem loadsOf_cons {resource : Resource} {bundle? : Option Bundle} {resources : List Resource}
    {bundles : List (Option Bundle)} :
    loadsOf (resource :: resources) (bundle? :: bundles) =
      (bundle?.map fun bundle => (resource, bundle)).toList ++ loadsOf resources bundles := by
  cases bundle? <;> rfl

theorem loadsOf_sublist (resources : List Resource) (bundles : List (Option Bundle)) :
    ((loadsOf resources bundles).map Prod.fst).Sublist resources := by
  induction resources generalizing bundles with
  | nil => exact List.nil_sublist []
  | cons resource rest inductionHypothesis =>
    cases bundles with
    | nil => exact List.nil_sublist _
    | cons bundle? others =>
      rw [loadsOf_cons]
      cases bundle? with
      | none => exact (inductionHypothesis others).cons resource
      | some bundle => exact (inductionHypothesis others).cons_cons resource

theorem nodup_loadsOf {resources : List Resource} (nodup : (resources.map Resource.id).Nodup)
    (bundles : List (Option Bundle)) : ((loadsOf resources bundles).map (·.1.id)).Nodup := by
  have sublist := (loadsOf_sublist resources bundles).map Resource.id
  rw [List.map_map] at sublist
  exact nodup.sublist sublist

/-- Reading goes through the resources that are new, in their order. -/
theorem readAll_eq_ok {seen : List String} {resources : List Resource}
    {gathered : List (Resource × Bundle)} :
    live.readAll seen resources calls = (.ok gathered, later) ↔
      ∃ bundles, Dialogue.InTurn live.Obtained (fresh seen resources) calls bundles later ∧
        loadsOf (fresh seen resources) bundles = gathered := by
  induction resources generalizing seen calls gathered with
  | nil =>
    constructor
    · intro succeeded
      cases succeeded
      exact ⟨[], .done, rfl⟩
    · rintro ⟨_, ⟨⟩, rfl⟩
      rfl
  | cons resource rest inductionHypothesis =>
    rw [readAll]
    by_cases isSeen : resource.id ∈ seen
    · rw [if_pos (List.contains_iff_mem.mpr isSeen), fresh_of_seen rest isSeen]
      exact inductionHypothesis
    · rw [if_neg (mt List.contains_iff_mem.mp isSeen), fresh_of_unseen rest isSeen]
      constructor
      · intro succeeded
        obtain ⟨bundle?, _, isRead, succeeded⟩ := Dialogue.bind_eq_ok.mp succeeded
        obtain ⟨others, _, areOthers, succeeded⟩ := Dialogue.bind_eq_ok.mp succeeded
        cases succeeded
        obtain ⟨bundles, inTurn, rfl⟩ := inductionHypothesis.mp areOthers
        exact ⟨bundle? :: bundles, .next (readOne_eq_ok.mp isRead) inTurn, loadsOf_cons⟩
      · rintro ⟨_, _ | ⟨first, inTurn⟩, rfl⟩
        refine Dialogue.bind_eq_ok.mpr ⟨_, _, readOne_eq_ok.mpr first, ?_⟩
        refine Dialogue.bind_eq_ok.mpr ⟨_, _, inductionHypothesis.mpr ⟨_, inTurn, rfl⟩, ?_⟩
        rw [loadsOf_cons]
        rfl

/-! ### Importing -/

/-- What an import comes to: each location leads to resources, one after the other, and of those
that are new each is read, again one after the other. The results are the resources that came to a
bundle. -/
inductive Imports (live : LiveRepository) (context : FindContext) (locations : List Location)
    (loaded : List String) (calls : List Call) : List (Resource × Bundle) → List Call → Prop
  | intro {found : List (List Resource)} {middle later : List Call}
    {bundles : List (Option Bundle)}
    (finds : Dialogue.InTurn (live.Found context) locations calls found middle)
    (reads : Dialogue.InTurn live.Obtained (fresh loaded found.flatten) middle bundles later) :
    Imports live context locations loaded calls (loadsOf (fresh loaded found.flatten) bundles) later

section Imports

variable {locations : List Location} {loaded : List String} {gathered : List (Resource × Bundle)}

theorem gather_eq_ok :
    live.gather context locations loaded calls = (.ok gathered, later) ↔
      live.Imports context locations loaded calls gathered later := by
  constructor
  · intro succeeded
    obtain ⟨_, _, areFound, succeeded⟩ := Dialogue.bind_eq_ok.mp succeeded
    obtain ⟨_, finds, rfl⟩ := findAll_eq_ok.mp areFound
    obtain ⟨_, reads, rfl⟩ := readAll_eq_ok.mp succeeded
    exact .intro finds reads
  · rintro ⟨finds, reads⟩
    refine Dialogue.bind_eq_ok.mpr ⟨_, _, findAll_eq_ok.mpr ⟨_, finds, rfl⟩, ?_⟩
    exact readAll_eq_ok.mpr ⟨_, reads, rfl⟩

theorem Imports.nodup (imports : live.Imports context locations loaded calls gathered later) :
    (gathered.map (·.1.id)).Nodup := by
  obtain ⟨_, _⟩ := imports
  exact nodup_loadsOf (nodup_fresh loaded _) _

theorem Imports.not_loaded (imports : live.Imports context locations loaded calls gathered later) :
    ∀ load ∈ gathered, load.1.id ∉ loaded := by
  obtain ⟨_, _⟩ := imports
  intro load member
  exact not_mem_of_fresh ((loadsOf_sublist _ _).subset (List.mem_map_of_mem member))

/-- An import succeeds exactly if finding and reading do, and then it results in the first
occurrences of the identities not loaded before among all that was found, in this order, without
those that were missing and ignored. Their identities are pairwise distinct, and none of them was
loaded before. -/
theorem gathers_first_of_each :
    live.gather context locations loaded calls = (.ok gathered, later) ↔
      live.Imports context locations loaded calls gathered later ∧
        (gathered.map (·.1.id)).Nodup ∧ ∀ load ∈ gathered, load.1.id ∉ loaded := by
  rw [gather_eq_ok]
  constructor
  · exact fun imports => ⟨imports, imports.nodup, imports.not_loaded⟩
  · exact And.left

end Imports

end LiveRepository

/-- The same holds of finders and readers that never change, whatever was called before. -/
theorem Repository.gather_eq_ok {repository : Repository} {context : FindContext}
    {locations : List Location} {loaded : List String} {gathered : List (Resource × Bundle)}
    {calls : List Call} :
    (repository.gather context locations loaded).outcome = .ok gathered ↔
      ∃ later, repository.live.Imports context locations loaded calls gathered later := by
  simp only [← (mirrors_gather locations loaded calls).1, ← LiveRepository.gather_eq_ok,
    Prod.ext_iff, exists_and_left, exists_eq', and_true]

end LayeredConfig
