/-
This file defines dialogues: computations that call finders and readers which may change.

A finder or a reader need not answer alike each time. What it is like at some point follows from the
calls that were made up to there, to it or to any other; so a dialogue knows these calls and adds
its own to them. Among the calls stand the bundles that readers answered, each where it was
received. A dialogue may fail, but the calls stay made.

A run asks finders and readers that do not change. A dialogue mirrors a run if it comes to the same
with the same requests and the same loads, whatever was called before.
-/

import LayeredConfig.Proofs.Run

namespace LayeredConfig

/-! ### Calls -/

/-- A call to a finder or a reader, or a bundle that came back from one. -/
inductive Call where
  /-- A finder is asked whether it takes a location. -/
  | offered (finder : String) (context : FindContext) (location : Location)
  /-- A reader is asked whether it takes a resource. -/
  | shown (reader : String) (resource : Resource)
  | requested (request : Request)
  /-- The reader that was requested last has returned the bundle of a resource. -/
  | received (resource : Resource) (bundle : Bundle)
  deriving DecidableEq, Repr

namespace Call

def request? : Call → Option Request
  | requested request => some request
  | _ => none

def load? : Call → Option (Resource × Bundle)
  | received resource bundle => some (resource, bundle)
  | _ => none

/-- The requests among some calls. -/
def requestsOf (calls : List Call) : List Request :=
  calls.filterMap request?

/-- The bundles that were read among some calls, each with its resource. -/
def loadsOf (calls : List Call) : List (Resource × Bundle) :=
  calls.filterMap load?

theorem requestsOf_append (first second : List Call) :
    requestsOf (first ++ second) = requestsOf first ++ requestsOf second :=
  List.filterMap_append

theorem loadsOf_append (first second : List Call) :
    loadsOf (first ++ second) = loadsOf first ++ loadsOf second :=
  List.filterMap_append

/-- The call that an event of a run is; a note is none. -/
def ofEvent? : Event → Option Call
  | .noted _ => none
  | .requested request => some (requested request)
  | .received resource bundle => some (received resource bundle)

/-- The calls in the journal of a run. -/
def ofJournal (journal : Journal) : List Call :=
  journal.toList.filterMap ofEvent?

theorem ofJournal_append (first second : Journal) :
    ofJournal (first ++ second) = ofJournal first ++ ofJournal second := by
  rw [ofJournal, Array.toList_append, List.filterMap_append]
  rfl

theorem requestsOf_ofJournal (journal : Journal) :
    requestsOf (ofJournal journal) = journal.requests := by
  rw [requestsOf, ofJournal, List.filterMap_filterMap]
  refine List.filterMap_congr fun event _ => ?_
  cases event <;> rfl

theorem loadsOf_ofJournal (journal : Journal) : loadsOf (ofJournal journal) = journal.loads := by
  rw [loadsOf, ofJournal, List.filterMap_filterMap]
  refine List.filterMap_congr fun event _ => ?_
  cases event <;> rfl

/-- Whether the journal of a run would have the call, too: it has what is asked for and what comes
back, but not who was asked whether to take it. -/
def isJournaled : Call → Bool
  | offered .. => false
  | shown .. => false
  | _ => true

/-- The calls that the journal of a run would have. -/
def journaledOf (calls : List Call) : List Call :=
  calls.filter isJournaled

theorem journaledOf_append (first second : List Call) :
    journaledOf (first ++ second) = journaledOf first ++ journaledOf second :=
  List.filter_append first second

theorem journaledOf_ofJournal (journal : Journal) :
    journaledOf (ofJournal journal) = ofJournal journal := by
  refine List.filter_eq_self.mpr fun call member => ?_
  obtain ⟨event, _, isCall⟩ := List.mem_filterMap.mp member
  cases event <;> cases isCall <;> rfl

theorem requestsOf_journaledOf (calls : List Call) :
    requestsOf (journaledOf calls) = requestsOf calls := by
  rw [requestsOf, journaledOf, List.filterMap_filter]
  refine List.filterMap_congr fun call _ => ?_
  cases call <;> rfl

theorem loadsOf_journaledOf (calls : List Call) : loadsOf (journaledOf calls) = loadsOf calls := by
  rw [loadsOf, journaledOf, List.filterMap_filter]
  refine List.filterMap_congr fun call _ => ?_
  cases call <;> rfl

/-- The calls of a journal are its requests and its loads. -/
theorem mem_ofJournal {journal : Journal} {call : Call} (member : call ∈ ofJournal journal) :
    (∃ request ∈ journal.requests, call = requested request) ∨
      ∃ load ∈ journal.loads, call = received load.1 load.2 := by
  cases call with
  | offered | shown =>
    obtain ⟨event, _, isCall⟩ := List.mem_filterMap.mp member
    cases event <;> cases isCall
  | requested request =>
    refine Or.inl ⟨request, ?_, rfl⟩
    rw [← requestsOf_ofJournal]
    exact List.mem_filterMap.mpr ⟨_, member, rfl⟩
  | received resource bundle =>
    refine Or.inr ⟨(resource, bundle), ?_, rfl⟩
    rw [← loadsOf_ofJournal]
    exact List.mem_filterMap.mpr ⟨_, member, rfl⟩

end Call

/-- The calls of two runs in a row. -/
theorem Run.calls_bind {First Second : Type} (run : Run First) (next : First → Run Second) :
    Call.ofJournal (run >>= next).recorded =
      Call.ofJournal run.recorded ++
        match run.outcome with
        | .ok value => Call.ofJournal (next value).recorded
        | .error _ => [] := by
  rw [recorded_bind, Call.ofJournal_append]
  cases run.outcome <;> rfl

/-! ### Dialogues -/

/-- A computation that knows the calls so far, adds to them and may fail. -/
def Dialogue (Result : Type) : Type :=
  List Call → Except Error Result × List Call

namespace Dialogue

instance : Monad Dialogue where
  pure value := fun calls => (.ok value, calls)
  bind dialogue next := fun calls =>
    match dialogue calls with
    | (.ok value, later) => next value later
    | (.error cause, later) => (.error cause, later)

/-- The calls so far. -/
def soFar : Dialogue (List Call) :=
  fun calls => (.ok calls, calls)

def call (made : Call) : Dialogue Unit :=
  fun calls => (.ok (), calls ++ [made])

/-- A run as part of a dialogue; its notes are left out. -/
def ofRun {Result : Type} (run : Run Result) : Dialogue Result :=
  fun calls => (run.outcome, calls ++ Call.ofJournal run.recorded)

def ofExcept {Result : Type} (outcome : Except Error Result) : Dialogue Result :=
  ofRun (Run.ofExcept outcome)

def fail {Result : Type} (cause : Error) : Dialogue Result :=
  ofExcept (.error cause)

/-- The outcome of a dialogue, failed or not, with its calls made. -/
def attempt {Result : Type} (dialogue : Dialogue Result) : Dialogue (Except Error Result) :=
  fun calls => (.ok (dialogue calls).1, (dialogue calls).2)

section Laws

variable {First Second : Type} {dialogue : Dialogue First} {next : First → Dialogue Second}

theorem bind_of_ok {calls later : List Call} {value : First}
    (succeeded : dialogue calls = (.ok value, later)) :
    (dialogue >>= next) calls = next value later := by
  show (match dialogue calls with
    | (.ok value, later) => next value later
    | (.error cause, later) => (.error cause, later)) = _
  rw [succeeded]

theorem bind_of_error {calls later : List Call} {cause : Error}
    (failed : dialogue calls = (.error cause, later)) :
    (dialogue >>= next) calls = (.error cause, later) := by
  show (match dialogue calls with
    | (.ok value, later) => next value later
    | (.error cause, later) => (.error cause, later)) = _
  rw [failed]

/-- Two dialogues in a row succeed exactly if both do. -/
theorem bind_eq_ok {calls later : List Call} {value : Second} :
    (dialogue >>= next) calls = (.ok value, later) ↔
      ∃ first middle, dialogue calls = (.ok first, middle) ∧
        next first middle = (.ok value, later) := by
  rcases ended : dialogue calls with ⟨cause | first, middle⟩
  · rw [bind_of_error ended]
    constructor
    · intro succeeded
      cases succeeded
    · rintro ⟨_, _, same, _⟩
      cases same
  · rw [bind_of_ok ended]
    constructor
    · exact fun succeeded => ⟨first, middle, rfl, succeeded⟩
    · rintro ⟨_, _, same, succeeded⟩
      cases same
      exact succeeded

/-- Two dialogues in a row fail exactly if the first one does or the second one after it. -/
theorem bind_eq_error {calls later : List Call} {cause : Error} :
    (dialogue >>= next) calls = (.error cause, later) ↔
      dialogue calls = (.error cause, later) ∨
        ∃ first middle, dialogue calls = (.ok first, middle) ∧
          next first middle = (.error cause, later) := by
  rcases ended : dialogue calls with ⟨earlier | first, middle⟩
  · rw [bind_of_error ended, Prod.mk.injEq, Prod.mk.injEq, Except.error.injEq, Except.error.injEq]
    constructor
    · exact Or.inl
    · rintro (same | ⟨_, _, same, _⟩)
      · exact same
      · cases same
  · rw [bind_of_ok ended]
    constructor
    · exact fun failed => Or.inr ⟨first, middle, rfl, failed⟩
    · rintro (same | ⟨_, _, same, failed⟩)
      · cases same
      · cases same
        exact failed

/-- To look at the calls so far changes nothing. -/
theorem of_soFar_bind {next : List Call → Dialogue Second} {calls : List Call}
    {ended : Except Error Second × List Call} (whole : (soFar >>= next) calls = ended) :
    next calls calls = ended :=
  whole

theorem ofExcept_eq (outcome : Except Error First) (calls : List Call) :
    ofExcept outcome calls = (outcome, calls) :=
  congrArg (Prod.mk outcome) (List.append_nil calls)

theorem ofExcept_eq_ok {outcome : Except Error First} {calls later : List Call} {value : First} :
    ofExcept outcome calls = (.ok value, later) ↔ outcome = .ok value ∧ calls = later := by
  rw [ofExcept_eq, Prod.mk.injEq]

/-! ### Calls that are made -/

/-- The dialogue adds to the calls before it, and makes only calls that are allowed. -/
def Adds (allowed : Call → Prop) (dialogue : Dialogue First) : Prop :=
  ∀ calls, ∃ made, (dialogue calls).2 = calls ++ made ∧ ∀ call ∈ made, allowed call

theorem Adds.mono {allowed other : Call → Prop} (adds : dialogue.Adds allowed)
    (within : ∀ call, allowed call → other call) : dialogue.Adds other := by
  intro calls
  obtain ⟨made, added, areAllowed⟩ := adds calls
  exact ⟨made, added, fun call member => within call (areAllowed call member)⟩

theorem adds_of_same {allowed : Call → Prop} (same : ∀ calls, (dialogue calls).2 = calls) :
    dialogue.Adds allowed := by
  intro calls
  refine ⟨[], (same calls).trans (List.append_nil calls).symm, fun call member => ?_⟩
  cases member

theorem adds_pure {allowed : Call → Prop} (value : First) :
    (pure value : Dialogue First).Adds allowed :=
  adds_of_same fun _ => rfl

theorem adds_soFar {allowed : Call → Prop} : soFar.Adds allowed :=
  adds_of_same fun _ => rfl

theorem adds_call {allowed : Call → Prop} {made : Call} (isAllowed : allowed made) :
    (call made).Adds allowed := by
  intro calls
  refine ⟨[made], rfl, fun other member => ?_⟩
  rwa [List.mem_singleton.mp member]

theorem adds_ofRun {allowed : Call → Prop} {run : Run First}
    (asks : run.Asks fun request => allowed (.requested request))
    (receives : ∀ load ∈ run.recorded.loads, allowed (.received load.1 load.2)) :
    (ofRun run).Adds allowed := by
  intro calls
  refine ⟨_, rfl, fun call member => ?_⟩
  rcases Call.mem_ofJournal member with ⟨request, isRequest, rfl⟩ | ⟨load, isLoad, rfl⟩
  · exact asks request isRequest
  · exact receives load isLoad

theorem adds_ofExcept {allowed : Call → Prop} (outcome : Except Error First) :
    (ofExcept outcome).Adds allowed :=
  adds_of_same fun _ => List.append_nil _

theorem Adds.bind {allowed : Call → Prop} (first : dialogue.Adds allowed)
    (second : ∀ value, (next value).Adds allowed) : (dialogue >>= next).Adds allowed := by
  intro calls
  obtain ⟨made, after, isAllowed⟩ := first calls
  rcases ended : dialogue calls with ⟨cause | value, later⟩
  · rw [ended] at after
    rw [bind_of_error ended]
    exact ⟨made, after, isAllowed⟩
  · rw [ended] at after
    rw [bind_of_ok ended]
    obtain ⟨others, afterOthers, othersAllowed⟩ := second value later
    refine ⟨made ++ others, ?_, fun call member => ?_⟩
    · rw [afterOthers, show later = calls ++ made from after, List.append_assoc]
    · exact (List.mem_append.mp member).elim (isAllowed call) (othersAllowed call)

/-- What is made of the value of a dialogue takes no further calls. -/
theorem bind_pure_eq (dialogue : Dialogue First) (change : First → Second) (calls : List Call) :
    (dialogue >>= fun value => pure (change value)) calls =
      ((dialogue calls).1.map change, (dialogue calls).2) := by
  rcases ended : dialogue calls with ⟨cause | value, later⟩
  · exact bind_of_error ended
  · exact bind_of_ok ended

/-! ### Both ends of a dialogue -/

/-- After the given calls, the dialogue succeeds or fails as stated; the calls up to its end are
part of either statement. -/
def Leaves (dialogue : Dialogue First) (calls : List Call)
    (succeeds : First → List Call → Prop) (fails : Error → List Call → Prop) : Prop :=
  match dialogue calls with
  | (.ok value, later) => succeeds value later
  | (.error cause, later) => fails cause later

theorem Leaves.of_eq_ok {calls later : List Call} {succeeds : First → List Call → Prop}
    {fails : Error → List Call → Prop} {value : First}
    (leaves : dialogue.Leaves calls succeeds fails)
    (succeeded : dialogue calls = (.ok value, later)) : succeeds value later := by
  rw [Leaves, succeeded] at leaves
  exact leaves

theorem Leaves.of_eq_error {calls later : List Call} {succeeds : First → List Call → Prop}
    {fails : Error → List Call → Prop} {cause : Error}
    (leaves : dialogue.Leaves calls succeeds fails)
    (failed : dialogue calls = (.error cause, later)) : fails cause later := by
  rw [Leaves, failed] at leaves
  exact leaves

theorem leaves_ofExcept {outcome : Except Error First} {calls : List Call}
    {succeeds : First → List Call → Prop} {fails : Error → List Call → Prop}
    (good : ∀ value, outcome = .ok value → succeeds value calls)
    (bad : ∀ cause, outcome = .error cause → fails cause calls) :
    (ofExcept outcome).Leaves calls succeeds fails := by
  rw [Leaves, ofExcept_eq]
  cases outcome with
  | ok value => exact good value rfl
  | error cause => exact bad cause rfl

theorem Leaves.bind {calls : List Call} {middle : First → List Call → Prop}
    {succeeds : Second → List Call → Prop} {fails : Error → List Call → Prop}
    (first : dialogue.Leaves calls middle fails)
    (second : ∀ value later, middle value later → (next value).Leaves later succeeds fails) :
    (dialogue >>= next).Leaves calls succeeds fails := by
  rcases ended : dialogue calls with ⟨cause | value, later⟩
  · rw [Leaves, bind_of_error ended]
    exact first.of_eq_error ended
  · rw [Leaves, bind_of_ok ended]
    exact second value later (first.of_eq_ok ended)

/-! ### Dialogues that mirror runs -/

/-- Whatever was called before, the dialogue comes to what the run comes to, and it makes the calls
that the journal of the run has. -/
def Mirrors (dialogue : Dialogue First) (run : Run First) : Prop :=
  ∀ calls, (dialogue calls).1 = run.outcome ∧
    Call.journaledOf (dialogue calls).2 = Call.journaledOf calls ++ Call.ofJournal run.recorded

theorem mirrors_ofRun (run : Run First) : (ofRun run).Mirrors run := by
  intro calls
  refine ⟨rfl, ?_⟩
  show Call.journaledOf (calls ++ _) = _
  rw [Call.journaledOf_append, Call.journaledOf_ofJournal]

theorem mirrors_pure (value : First) : (pure value : Dialogue First).Mirrors (pure value) :=
  fun calls => ⟨rfl, (List.append_nil (Call.journaledOf calls)).symm⟩

theorem Mirrors.bind {run : Run First} {follow : First → Run Second}
    (first : dialogue.Mirrors run) (second : ∀ value, (next value).Mirrors (follow value)) :
    (dialogue >>= next).Mirrors (run >>= follow) := by
  intro calls
  obtain ⟨outcome, made⟩ := first calls
  rw [Run.outcome_bind, Run.calls_bind]
  rcases ended : dialogue calls with ⟨cause | value, later⟩
  · rw [ended] at outcome made
    rw [bind_of_error ended, ← outcome]
    exact ⟨rfl, made.trans (List.append_nil _ ▸ rfl)⟩
  · rw [ended] at outcome made
    obtain ⟨nextOutcome, nextMade⟩ := second value later
    rw [bind_of_ok ended, ← outcome, nextMade, made, List.append_assoc]
    exact ⟨nextOutcome, rfl⟩

/-- A dialogue that comes to a value without a request may go before another one. -/
theorem Mirrors.after_value {value : First} {run : Run Second}
    (first : dialogue.Mirrors (pure value)) (second : (next value).Mirrors run) :
    (dialogue >>= next).Mirrors run := by
  intro calls
  obtain ⟨outcome, made⟩ := first calls
  rcases ended : dialogue calls with ⟨cause | other, later⟩
  · rw [ended] at outcome
    cases outcome
  · rw [ended] at outcome made
    obtain rfl := Except.ok.inj outcome
    rw [bind_of_ok ended]
    obtain ⟨nextOutcome, nextMade⟩ := second later
    refine ⟨nextOutcome, ?_⟩
    rw [nextMade, made]
    exact congrArg (· ++ _) (List.append_nil _)

theorem mirrors_soFar {next : List Call → Dialogue Second} {run : Run Second}
    (second : ∀ calls, (next calls).Mirrors run) : (soFar >>= next).Mirrors run :=
  fun calls => second calls calls

/-- A call that the journal of a run has not is not mirrored. -/
theorem mirrors_call {made : Call} (unjournaled : made.isJournaled = false)
    {next : Unit → Dialogue Second} {run : Run Second} (second : (next ()).Mirrors run) :
    (call made >>= next).Mirrors run := by
  intro calls
  obtain ⟨outcome, later⟩ := second (calls ++ [made])
  refine ⟨outcome, later.trans ?_⟩
  rw [Call.journaledOf_append, Call.journaledOf, Call.journaledOf,
    List.filter_cons_of_neg (Bool.not_eq_true _ ▸ unjournaled), List.filter_nil, List.append_nil]

/-- The notes of a run are not mirrored. -/
theorem Mirrors.after_note {dialogue : Dialogue Second} {severity : Severity} {text : String}
    {follow : Unit → Run Second} (mirrors : dialogue.Mirrors (follow ())) :
    dialogue.Mirrors (Run.note severity text >>= follow) := by
  intro calls
  obtain ⟨outcome, made⟩ := mirrors calls
  rw [Run.outcome_bind, Run.calls_bind]
  exact ⟨outcome, made⟩

theorem Mirrors.attempt {run : Run First} (mirrors : dialogue.Mirrors run) :
    dialogue.attempt.Mirrors run.attempt := by
  intro calls
  obtain ⟨outcome, made⟩ := mirrors calls
  exact ⟨congrArg Except.ok outcome, made⟩

theorem Mirrors.requests {run : Run First} (mirrors : dialogue.Mirrors run) (calls : List Call) :
    Call.requestsOf (dialogue calls).2 = Call.requestsOf calls ++ run.recorded.requests := by
  have made := congrArg Call.requestsOf (mirrors calls).2
  rwa [Call.requestsOf_append, Call.requestsOf_journaledOf, Call.requestsOf_journaledOf,
    Call.requestsOf_ofJournal] at made

theorem Mirrors.loads {run : Run First} (mirrors : dialogue.Mirrors run) (calls : List Call) :
    Call.loadsOf (dialogue calls).2 = Call.loadsOf calls ++ run.recorded.loads := by
  have made := congrArg Call.loadsOf (mirrors calls).2
  rwa [Call.loadsOf_append, Call.loadsOf_journaledOf, Call.loadsOf_journaledOf,
    Call.loadsOf_ofJournal] at made

end Laws

end Dialogue

end LayeredConfig
