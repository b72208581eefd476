/-
This file defines the journal of a run: the notes for the log, the requests that were made to
finders and readers, and the bundles that readers returned, in the order in which they happened.

A run is a computation that may fail and that keeps its journal even then. A note has a severity;
which notes are shown depends on the level that the user asks for, while the journal keeps them all.

A run only adds to its journal. So it is known by two things, its outcome and what it records, and
the laws at the end of the file give both for every way in which runs are built.
-/

import LayeredConfig.Error
import LayeredConfig.Profile.Set
import LayeredConfig.Property.Bundle
import LayeredConfig.Text.LowerCase

namespace LayeredConfig

/-! ### Notes -/

inductive Severity where
  | error
  | warn
  | info
  | debug
  | trace
  deriving DecidableEq, Inhabited, Repr

namespace Severity

def label : Severity → String
  | error => "ERROR"
  | warn => "WARN"
  | info => "INFO"
  | debug => "DEBUG"
  | trace => "TRACE"

end Severity

/-- A message for the log. -/
structure Note where
  severity : Severity
  text : String
  deriving DecidableEq, Inhabited, Repr

/-- How much of the log is shown. -/
inductive LogLevel where
  | quiet
  | normal
  | verbose
  | trace
  deriving DecidableEq, Inhabited, Repr

namespace LogLevel

def text : LogLevel → String
  | quiet => "quiet"
  | normal => "normal"
  | verbose => "verbose"
  | trace => "trace"

/-- The level of a name, in any case. -/
def read (name : String) : Except String LogLevel :=
  match Text.lower name with
  | "quiet" => .ok quiet
  | "normal" => .ok normal
  | "verbose" => .ok verbose
  | "trace" => .ok trace
  | _ => .error ("invalid log level: " ++ name)

/-- The levels in order of how much they show. -/
def rank : LogLevel → Nat
  | quiet => 0
  | normal => 1
  | verbose => 2
  | trace => 3

/-- The first level that shows notes of a severity. -/
def showing : Severity → LogLevel
  | .error => normal
  | .warn => normal
  | .info => verbose
  | .debug => verbose
  | .trace => trace

def shows (level : LogLevel) (severity : Severity) : Bool :=
  (showing severity).rank ≤ level.rank

/-- The level for the two switches, and the name in the environment that counts without them. -/
def choose (verboseSwitch quietSwitch : Bool) (fromEnvironment : Option String) : LogLevel :=
  if verboseSwitch then verbose
  else if quietSwitch then quiet
  else
    match fromEnvironment.map read with
    | some (.ok level) => level
    | _ => normal

/-- The line that shows a note, if the level shows it. -/
def shownLine (level : LogLevel) (note : Note) : String :=
  if level.shows note.severity then note.severity.label ++ ": " ++ note.text ++ "\n" else ""

/-- All that is shown of the given notes. -/
def shown (level : LogLevel) (notes : List Note) : String :=
  String.join (notes.map level.shownLine)

end LogLevel

/-! ### Requests -/

/-- What a finder is told beside the location. -/
structure FindContext where
  /-- The resource that declares the import, unless an initial layer does. -/
  parent : Option Resource
  known : Option Profiles
  deriving DecidableEq, Inhabited, Repr

/-- A request to a finder or a reader, which is told apart by its name. -/
inductive Request where
  | find (finder : String) (context : FindContext) (location : Location)
  | findVariants (finder : String) (context : FindContext) (location : Location)
    (profiles : Profiles)
  | read (reader : String) (resource : Resource)
  deriving DecidableEq, Repr

inductive Event where
  | noted (note : Note)
  | requested (request : Request)
  /-- A reader has returned the bundle of a resource. -/
  | received (resource : Resource) (bundle : Bundle)
  deriving DecidableEq, Repr

/-- What has happened in a run, the latest last. -/
abbrev Journal := Array Event

namespace Journal

def notes (journal : Journal) : List Note :=
  journal.toList.filterMap fun
    | .noted note => some note
    | _ => none

def requests (journal : Journal) : List Request :=
  journal.toList.filterMap fun
    | .requested request => some request
    | _ => none

/-- The bundles that were read, each with its resource. -/
def loads (journal : Journal) : List (Resource × Bundle) :=
  journal.toList.filterMap fun
    | .received resource bundle => some (resource, bundle)
    | _ => none

@[simp] theorem loads_empty : loads #[] = [] := rfl

@[simp] theorem loads_append (first second : Journal) :
    loads (first ++ second) = loads first ++ loads second := by
  simp [loads]

@[simp] theorem loads_noted (note : Note) : loads #[.noted note] = [] := rfl

@[simp] theorem loads_requested (request : Request) : loads #[.requested request] = [] := rfl

@[simp] theorem loads_received (resource : Resource) (bundle : Bundle) :
    loads #[.received resource bundle] = [(resource, bundle)] := rfl

@[simp] theorem requests_empty : requests #[] = [] := rfl

@[simp] theorem requests_append (first second : Journal) :
    requests (first ++ second) = requests first ++ requests second := by
  simp [requests]

@[simp] theorem requests_noted (note : Note) : requests #[.noted note] = [] := rfl

@[simp] theorem requests_requested (request : Request) :
    requests #[.requested request] = [request] := rfl

@[simp] theorem requests_received (resource : Resource) (bundle : Bundle) :
    requests #[.received resource bundle] = [] := rfl

end Journal

/-! ### Runs -/

/-- A computation that keeps a journal and may fail. It adds to the journal and never looks at what
stands there. -/
structure Run (Result : Type) where
  perform : Journal → Except Error Result × Journal
  adds : ∀ journal, perform journal = ((perform #[]).1, journal ++ (perform #[]).2)

namespace Run

/-- The outcome of a run and its journal. -/
def result {Result : Type} (run : Run Result) : Except Error Result × Journal :=
  run.perform #[]

/-- What a run comes to. -/
def outcome {Result : Type} (run : Run Result) : Except Error Result :=
  run.result.1

/-- What a run adds to the journal. -/
def recorded {Result : Type} (run : Run Result) : Journal :=
  run.result.2

theorem perform_eq {Result : Type} (run : Run Result) (journal : Journal) :
    run.perform journal = (run.outcome, journal ++ run.recorded) :=
  run.adds journal

/-- A computation without a journal, as part of a run. -/
def ofExcept {Result : Type} (outcome : Except Error Result) : Run Result where
  perform journal := (outcome, journal)
  adds journal := by simp

def succeed {Result : Type} (value : Result) : Run Result :=
  ofExcept (.ok value)

def fail {Result : Type} (cause : Error) : Run Result :=
  ofExcept (.error cause)

/-- One run after another, which may depend on the outcome of the first. -/
def followedBy {First Second : Type} (run : Run First) (next : First → Run Second) :
    Run Second where
  perform journal :=
    match run.perform journal with
    | (.ok value, later) => (next value).perform later
    | (.error cause, later) => (.error cause, later)
  adds journal := by
    rw [run.perform_eq journal, run.perform_eq #[]]
    cases run.outcome with
    | ok value =>
      show (next value).perform (journal ++ run.recorded) = _
      rw [perform_eq]
      show _ = (((next value).perform (#[] ++ run.recorded)).1,
        journal ++ ((next value).perform (#[] ++ run.recorded)).2)
      rw [perform_eq]
      simp
    | error cause => simp

instance : Monad Run where
  pure := succeed
  bind := followedBy

def record (event : Event) : Run Unit where
  perform journal := (.ok (), journal.push event)
  adds journal := by simp

def note (severity : Severity) (text : String) : Run Unit :=
  record (.noted ⟨severity, text⟩)

def debug (text : String) : Run Unit := note .debug text

def trace (text : String) : Run Unit := note .trace text

/-- The outcome of a computation, failed or not, with nothing undone. -/
def attempt {Result : Type} (run : Run Result) : Run (Except Error Result) where
  perform journal :=
    let (outcome, later) := run.perform journal
    (.ok outcome, later)
  adds journal := by
    rw [run.perform_eq journal, run.perform_eq #[]]
    simp

/-! ### Outcomes and records -/

section Laws

variable {First Second : Type}

@[simp] theorem outcome_ofExcept (outcome : Except Error First) :
    (ofExcept outcome).outcome = outcome := rfl

@[simp] theorem recorded_ofExcept (outcome : Except Error First) :
    (ofExcept outcome).recorded = #[] := rfl

@[simp] theorem outcome_pure (value : First) : (pure value : Run First).outcome = .ok value := rfl

@[simp] theorem recorded_pure (value : First) : (pure value : Run First).recorded = #[] := rfl

@[simp] theorem outcome_fail (cause : Error) : (fail cause : Run First).outcome = .error cause := rfl

@[simp] theorem recorded_fail (cause : Error) : (fail cause : Run First).recorded = #[] := rfl

@[simp] theorem outcome_record (event : Event) : (record event).outcome = .ok () := rfl

@[simp] theorem recorded_record (event : Event) : (record event).recorded = #[event] := rfl

@[simp] theorem outcome_note (severity : Severity) (text : String) :
    (note severity text).outcome = .ok () := rfl

@[simp] theorem recorded_note (severity : Severity) (text : String) :
    (note severity text).recorded = #[.noted ⟨severity, text⟩] := rfl

@[simp] theorem outcome_debug (text : String) : (debug text).outcome = .ok () := rfl

@[simp] theorem recorded_debug (text : String) :
    (debug text).recorded = #[.noted ⟨.debug, text⟩] := rfl

@[simp] theorem outcome_trace (text : String) : (trace text).outcome = .ok () := rfl

@[simp] theorem recorded_trace (text : String) :
    (trace text).recorded = #[.noted ⟨.trace, text⟩] := rfl

@[simp] theorem outcome_attempt (run : Run First) : run.attempt.outcome = .ok run.outcome := rfl

@[simp] theorem recorded_attempt (run : Run First) : run.attempt.recorded = run.recorded := rfl

theorem result_bind (run : Run First) (next : First → Run Second) :
    (run >>= next).result =
      match run.outcome with
      | .ok value => ((next value).outcome, run.recorded ++ (next value).recorded)
      | .error cause => (.error cause, run.recorded) := by
  show (match run.perform #[] with
    | (.ok value, later) => (next value).perform later
    | (.error cause, later) => (.error cause, later)) = _
  rw [perform_eq]
  cases run.outcome with
  | ok value => simp only [perform_eq, Array.empty_append]
  | error cause => simp only [Array.empty_append]

@[simp] theorem outcome_bind (run : Run First) (next : First → Run Second) :
    (run >>= next).outcome = run.outcome >>= fun value => (next value).outcome := by
  rw [outcome, result_bind]
  cases run.outcome <;> rfl

theorem recorded_bind (run : Run First) (next : First → Run Second) :
    (run >>= next).recorded =
      run.recorded ++
        match run.outcome with
        | .ok value => (next value).recorded
        | .error _ => #[] := by
  rw [recorded, result_bind]
  cases run.outcome <;> simp

theorem recorded_bind_ok {run : Run First} {value : First} (next : First → Run Second)
    (succeeded : run.outcome = .ok value) :
    (run >>= next).recorded = run.recorded ++ (next value).recorded := by
  rw [recorded_bind, succeeded]

theorem recorded_bind_error {run : Run First} {cause : Error} (next : First → Run Second)
    (failed : run.outcome = .error cause) : (run >>= next).recorded = run.recorded := by
  rw [recorded_bind, failed, Array.append_empty]

end Laws

end Run

end LayeredConfig
