/-
This file takes runs apart: what a sequence of computations came to, which of them failed, and what
was asked for and loaded meanwhile.
-/

import LayeredConfig.Journal
import Mathlib.Data.List.Forall2

namespace LayeredConfig

/-! ### Outcomes -/

section Outcome

variable {Cause First Second : Type}

theorem bind_eq_ok {outcome : Except Cause First} {next : First → Except Cause Second}
    {value : Second} :
    outcome >>= next = .ok value ↔ ∃ first, outcome = .ok first ∧ next first = .ok value := by
  cases outcome with
  | ok first =>
    constructor
    · intro succeeded
      exact ⟨first, rfl, succeeded⟩
    · rintro ⟨_, same, succeeded⟩
      cases same
      exact succeeded
  | error cause =>
    constructor
    · intro succeeded
      cases succeeded
    · rintro ⟨_, same, _⟩
      cases same

theorem bind_eq_error {outcome : Except Cause First} {next : First → Except Cause Second}
    {cause : Cause} :
    outcome >>= next = .error cause ↔
      outcome = .error cause ∨ ∃ first, outcome = .ok first ∧ next first = .error cause := by
  cases outcome with
  | ok first =>
    constructor
    · intro failed
      exact Or.inr ⟨first, rfl, failed⟩
    · rintro (same | ⟨_, same, failed⟩)
      · cases same
      · cases same
        exact failed
  | error earlier =>
    constructor
    · intro failed
      cases failed
      exact Or.inl rfl
    · rintro (same | ⟨_, same, _⟩)
      · cases same
        rfl
      · cases same

theorem exists_ok_of_isOk {outcome : Except Cause First} (isOk : outcome.isOk = true) :
    ∃ value, outcome = .ok value := by
  cases outcome with
  | ok value => exact ⟨value, rfl⟩
  | error cause => cases isOk

theorem ok_of_toOption {outcome : Except Cause First} {value : First}
    (isSome : outcome.toOption = some value) : outcome = .ok value := by
  cases outcome with
  | ok other => exact congrArg Except.ok (Option.some.inj isSome)
  | error cause => cases isSome

/-- What is read off the value of a computation is read off a value that it comes to. -/
theorem exists_ok_of_map {outcome : Except Cause First} {read : First → Second} {expected : Second}
    (isRead : outcome.toOption.map read = some expected) :
    ∃ value, outcome = .ok value ∧ read value = expected := by
  obtain ⟨value, isSome, same⟩ := Option.map_eq_some_iff.mp isRead
  exact ⟨value, ok_of_toOption isSome, same⟩

/-- What is among the values of a computation, where one that fails has none. -/
theorem exists_ok_of_mem {outcome : Except Cause (List First)} {value : First}
    (member : value ∈ outcome.toOption.getD []) :
    ∃ values, outcome = .ok values ∧ value ∈ values := by
  cases outcome with
  | ok values => exact ⟨values, rfl, member⟩
  | error cause => cases member

theorem exists_ok_and {value : First} {holds : First → Prop} :
    (∃ result, (.ok value : Except Cause First) = .ok result ∧ holds result) ↔ holds value := by
  constructor
  · rintro ⟨_, same, isHeld⟩
    exact Except.ok.inj same ▸ isHeld
  · exact fun isHeld => ⟨value, rfl, isHeld⟩

theorem map_eq_ok {change : First → Second} {outcome : Except Cause First} {value : Second} :
    outcome.map change = .ok value ↔ ∃ first, outcome = .ok first ∧ change first = value := by
  cases outcome with
  | ok first =>
    constructor
    · intro same
      exact ⟨first, rfl, Except.ok.inj same⟩
    · rintro ⟨_, same, rfl⟩
      cases same
      rfl
  | error cause =>
    constructor
    · intro same
      cases same
    · rintro ⟨_, same, _⟩
      cases same

theorem map_eq_error {change : First → Second} {outcome : Except Cause First} {cause : Cause} :
    outcome.map change = .error cause ↔ outcome = .error cause := by
  cases outcome with
  | ok first =>
    constructor <;> intro same <;> cases same
  | error earlier => exact ⟨fun same => by cases same; rfl, fun same => by cases same; rfl⟩

theorem mapError_eq_ok {Other : Type} {change : Cause → Other} {outcome : Except Cause First}
    {value : First} : outcome.mapError change = .ok value ↔ outcome = .ok value := by
  cases outcome with
  | ok first => exact ⟨fun same => by cases same; rfl, fun same => by cases same; rfl⟩
  | error cause =>
    constructor <;> intro same <;> cases same

theorem map_bind {outcome : Except Cause First} {next : First → Except Cause Second} {Third : Type}
    {change : Second → Third} :
    (outcome >>= next).map change = outcome >>= fun value => (next value).map change := by
  cases outcome <;> rfl

/-! ### Results one by one -/

theorem mapM_congr {read other : First → Except Cause Second} {inputs : List First}
    (same : ∀ input ∈ inputs, read input = other input) :
    inputs.mapM read = inputs.mapM other := by
  induction inputs with
  | nil => rfl
  | cons input rest inductionHypothesis =>
    obtain ⟨here, later⟩ := List.forall_mem_cons.mp same
    rw [List.mapM_cons, List.mapM_cons, here, inductionHypothesis later]

/-- What is computed for each of several inputs are the results for them, in their order. -/
theorem mapM_eq_ok {read : First → Except Cause Second} {inputs : List First}
    {outputs : List Second} :
    inputs.mapM read = .ok outputs ↔
      List.Forall₂ (fun input output => read input = .ok output) inputs outputs := by
  induction inputs generalizing outputs with
  | nil =>
    rw [List.forall₂_nil_left_iff]
    exact ⟨fun same => (Except.ok.inj same).symm, fun same => congrArg Except.ok same.symm⟩
  | cons input rest inductionHypothesis =>
    simp only [List.mapM_cons, bind_eq_ok, List.forall₂_cons_left_iff, inductionHypothesis]
    constructor
    · rintro ⟨output, isOutput, others, areOthers, same⟩
      exact ⟨output, others, isOutput, areOthers, (Except.ok.inj same).symm⟩
    · rintro ⟨output, others, isOutput, areOthers, rfl⟩
      exact ⟨output, isOutput, others, areOthers, rfl⟩

/-- Something is computed for several inputs exactly if it is for each of them. -/
theorem exists_mapM_eq_ok {read : First → Except Cause Second} {inputs : List First} :
    (∃ outputs, inputs.mapM read = .ok outputs) ↔
      ∀ input ∈ inputs, ∃ output, read input = .ok output := by
  simp only [mapM_eq_ok]
  induction inputs with
  | nil => exact iff_of_true ⟨[], .nil⟩ (List.forall_mem_nil _)
  | cons input rest inductionHypothesis =>
    rw [List.forall_mem_cons, ← inductionHypothesis]
    constructor
    · rintro ⟨outputs, each⟩
      cases each with
      | cons isOutput areOthers => exact ⟨⟨_, isOutput⟩, _, areOthers⟩
    · rintro ⟨⟨output, isOutput⟩, others, areOthers⟩
      exact ⟨output :: others, .cons isOutput areOthers⟩

/-- What is computed for one input after the other fails with the failure that comes first. -/
theorem mapM_eq_error {read : First → Except Cause Second} {inputs : List First} {cause : Cause} :
    inputs.mapM read = .error cause ↔
      ∃ earlier input later, inputs = earlier ++ input :: later ∧
        (∀ other ∈ earlier, ∃ output, read other = .ok output) ∧ read input = .error cause := by
  induction inputs with
  | nil =>
    refine iff_of_false nofun ?_
    rintro ⟨earlier, input, later, split, _⟩
    exact List.append_ne_nil_of_right_ne_nil earlier (List.cons_ne_nil input later) split.symm
  | cons first rest inductionHypothesis =>
    rw [List.mapM_cons, bind_eq_error]
    constructor
    · rintro (failed | ⟨output, isOutput, failed⟩)
      · exact ⟨[], first, rest, rfl, List.forall_mem_nil _, failed⟩
      · rcases bind_eq_error.mp failed with failed | ⟨_, _, failed⟩
        · obtain ⟨earlier, input, later, rfl, succeeded, failed⟩ := inductionHypothesis.mp failed
          refine ⟨first :: earlier, input, later, rfl, fun other member => ?_, failed⟩
          rcases List.mem_cons.mp member with rfl | inEarlier
          · exact ⟨output, isOutput⟩
          · exact succeeded other inEarlier
        · cases failed
    · rintro ⟨earlier, input, later, split, succeeded, failed⟩
      cases earlier with
      | nil =>
        obtain ⟨rfl, rfl⟩ := List.cons.inj split
        exact Or.inl failed
      | cons other earlier =>
        obtain ⟨rfl, rfl⟩ := List.cons.inj split
        obtain ⟨output, isOutput⟩ := succeeded first List.mem_cons_self
        have inRest := inductionHypothesis.mpr ⟨earlier, input, later, rfl,
          fun other member => succeeded other (List.mem_cons_of_mem _ member), failed⟩
        exact Or.inr ⟨output, isOutput, bind_eq_error.mpr (Or.inl inRest)⟩

end Outcome

/-! ### Runs -/

namespace Run

variable {First Second : Type}

/-- A run is known by its outcome and by what it records. -/
theorem eq_of_result {first second : Run First} (same : first.result = second.result) :
    first = second := by
  have perform : first.perform = second.perform := by
    funext journal
    rw [first.adds journal, second.adds journal]
    rw [show first.perform #[] = second.perform #[] from same]
  cases first
  cases second
  subst perform
  rfl

/-- What follows a run matters only for the value that the run comes to. -/
theorem bind_congr {run : Run First} {next other : First → Run Second}
    (same : ∀ value, run.outcome = .ok value → next value = other value) :
    run >>= next = run >>= other := by
  apply eq_of_result
  rw [result_bind, result_bind]
  cases outcome : run.outcome with
  | ok value =>
    show ((next value).outcome, _ ++ (next value).recorded) = _
    rw [same value outcome]
  | error cause => rfl

theorem outcome_bind_eq_ok {run : Run First} {next : First → Run Second} {value : Second} :
    (run >>= next).outcome = .ok value ↔
      ∃ first, run.outcome = .ok first ∧ (next first).outcome = .ok value := by
  rw [outcome_bind, bind_eq_ok]

theorem outcome_bind_eq_error {run : Run First} {next : First → Run Second} {cause : Error} :
    (run >>= next).outcome = .error cause ↔
      run.outcome = .error cause ∨
        ∃ first, run.outcome = .ok first ∧ (next first).outcome = .error cause := by
  rw [outcome_bind, bind_eq_error]

/-! ### Loads -/

theorem loads_bind (run : Run First) (next : First → Run Second) :
    (run >>= next).recorded.loads =
      run.recorded.loads ++
        match run.outcome with
        | .ok value => (next value).recorded.loads
        | .error _ => [] := by
  rw [recorded_bind, Journal.loads_append]
  cases run.outcome <;> rfl

theorem loads_bind_of_nil {run : Run First} {next : First → Run Second}
    (first : run.recorded.loads = []) (second : ∀ value, (next value).recorded.loads = []) :
    (run >>= next).recorded.loads = [] := by
  rw [loads_bind, first]
  cases run.outcome with
  | ok value => exact second value
  | error cause => rfl

/-! ### Requests -/

theorem requests_bind (run : Run First) (next : First → Run Second) :
    (run >>= next).recorded.requests =
      run.recorded.requests ++
        match run.outcome with
        | .ok value => (next value).recorded.requests
        | .error _ => [] := by
  rw [recorded_bind, Journal.requests_append]
  cases run.outcome <;> rfl

/-- The run asks only for what is allowed, whether or not it succeeds. -/
def Asks (allowed : Request → Prop) (run : Run First) : Prop :=
  ∀ asked ∈ run.recorded.requests, allowed asked

theorem asks_of_nil {allowed : Request → Prop} {run : Run First}
    (silent : run.recorded.requests = []) : run.Asks allowed := by
  intro asked member
  rw [silent] at member
  cases member

theorem asks_record {allowed : Request → Prop} {request : Request} (isAllowed : allowed request) :
    (record (.requested request)).Asks allowed := by
  intro asked member
  rw [recorded_record, Journal.requests_requested] at member
  rwa [List.mem_singleton.mp member]

theorem Asks.bind {allowed : Request → Prop} {run : Run First} {next : First → Run Second}
    (first : run.Asks allowed) (second : ∀ value, (next value).Asks allowed) :
    (run >>= next).Asks allowed := by
  intro asked member
  rw [requests_bind, List.mem_append] at member
  rcases member with inFirst | inSecond
  · exact first asked inFirst
  · split at inSecond
    · next value _ => exact second value asked inSecond
    · cases inSecond

/-! ### Both ends of a run -/

/-- The run succeeds or fails as stated, with its journal in either case. -/
def Leaves (run : Run First) (succeeds : First → Journal → Prop) (fails : Error → Journal → Prop) :
    Prop :=
  match run.outcome with
  | .ok value => succeeds value run.recorded
  | .error cause => fails cause run.recorded

/-- The run succeeds or fails as stated, with what it loads in either case. -/
def Ends (run : Run First) (succeeds : First → List (Resource × Bundle) → Prop)
    (fails : Error → List (Resource × Bundle) → Prop) : Prop :=
  match run.outcome with
  | .ok value => succeeds value run.recorded.loads
  | .error cause => fails cause run.recorded.loads

section Ends

variable {run : Run First} {next : First → Run Second}

theorem Leaves.of_ok {succeeds : First → Journal → Prop} {fails : Error → Journal → Prop}
    {value : First} (leaves : run.Leaves succeeds fails) (outcome : run.outcome = .ok value) :
    succeeds value run.recorded := by
  rw [Leaves, outcome] at leaves
  exact leaves

theorem Leaves.of_error {succeeds : First → Journal → Prop} {fails : Error → Journal → Prop}
    {cause : Error} (leaves : run.Leaves succeeds fails) (outcome : run.outcome = .error cause) :
    fails cause run.recorded := by
  rw [Leaves, outcome] at leaves
  exact leaves

theorem leaves_ofExcept {outcome : Except Error First} {succeeds : First → Journal → Prop}
    {fails : Error → Journal → Prop} (good : ∀ value, outcome = .ok value → succeeds value #[])
    (bad : ∀ cause, outcome = .error cause → fails cause #[]) :
    (ofExcept outcome).Leaves succeeds fails := by
  cases outcome with
  | ok value => exact good value rfl
  | error cause => exact bad cause rfl

theorem Leaves.bind {middle : First → Journal → Prop} {succeeds : Second → Journal → Prop}
    {fails : Error → Journal → Prop} (first : run.Leaves middle fails)
    (second : ∀ value earlier, middle value earlier →
      (next value).Leaves (fun result later => succeeds result (earlier ++ later))
        fun cause later => fails cause (earlier ++ later)) :
    (run >>= next).Leaves succeeds fails := by
  rw [Leaves, outcome_bind]
  cases outcome : run.outcome with
  | ok value =>
    rw [recorded_bind_ok next outcome]
    exact second value _ (first.of_ok outcome)
  | error cause =>
    rw [recorded_bind_error next outcome]
    exact first.of_error outcome

/-- A note before a run is one more event in front of its journal. -/
theorem Leaves.after_note {severity : Severity} {text : String} {next : Unit → Run Second}
    {succeeds : Second → Journal → Prop} {fails : Error → Journal → Prop}
    (rest : (next ()).Leaves
      (fun result later => succeeds result (#[.noted ⟨severity, text⟩] ++ later))
      fun cause later => fails cause (#[.noted ⟨severity, text⟩] ++ later)) :
    (note severity text >>= next).Leaves succeeds fails := by
  have noted : (note severity text).Leaves
      (fun _ journal => journal = #[.noted ⟨severity, text⟩]) fails := rfl
  refine noted.bind fun _ earlier isNote => ?_
  rw [isNote]
  exact rest

theorem Ends.of_ok {succeeds : First → List (Resource × Bundle) → Prop}
    {fails : Error → List (Resource × Bundle) → Prop} {value : First}
    (ends : run.Ends succeeds fails) (outcome : run.outcome = .ok value) :
    succeeds value run.recorded.loads := by
  rw [Ends, outcome] at ends
  exact ends

theorem Ends.of_error {succeeds : First → List (Resource × Bundle) → Prop}
    {fails : Error → List (Resource × Bundle) → Prop} {cause : Error}
    (ends : run.Ends succeeds fails) (outcome : run.outcome = .error cause) :
    fails cause run.recorded.loads := by
  rw [Ends, outcome] at ends
  exact ends

end Ends

end Run

end LayeredConfig
