/-
This file tells a resolution by the readings that it consists of.

To read the imports of a layer is all that a resolution ever asks finders and readers for. So beside
each tree that a resolution comes to stands the list of the readings on the way to it, and the
journal holds the requests and the loads of these readings, one reading after the other. The same is
true of a resolution that fails, where the last reading may have failed.
-/

import LayeredConfig.Configuration
import LayeredConfig.Proofs.Growth.Step

namespace LayeredConfig

/-! ### Readings -/

/-- The imports of a layer are read, in the state in which the layer is then. -/
structure Reading where
  layer : Layer
  /-- What is known about profiles. -/
  known : Option Profiles
  /-- The identities that are in the tree already. -/
  loaded : List String

namespace Reading

def phase (reading : Reading) : Phase :=
  Phase.ofKnown reading.known

/-- What the finders are told in a reading. -/
def context (reading : Reading) : FindContext :=
  ⟨reading.layer.resource?, reading.known⟩

/-- The import that a reading consists of. -/
def gather (repository : Repository) (reading : Reading) : Run (List (Resource × Bundle)) :=
  repository.gather reading.context reading.layer.imports reading.loaded

def requests (repository : Repository) (reading : Reading) : List Request :=
  (reading.gather repository).recorded.requests

def loads (repository : Repository) (reading : Reading) : List (Resource × Bundle) :=
  (reading.gather repository).recorded.loads

/-- The journal holds what the readings ask for and what they load, one after the other. -/
structure Account (repository : Repository) (readings : List Reading) (journal : Journal) :
    Prop where
  requests : journal.requests = readings.flatMap (Reading.requests repository)
  loads : journal.loads = readings.flatMap (Reading.loads repository)

section Account

variable {repository : Repository} {readings : List Reading} {journal : Journal}

theorem account_empty : Account repository [] #[] :=
  ⟨rfl, rfl⟩

theorem Account.append {others : List Reading} {later : Journal}
    (first : Account repository readings journal) (second : Account repository others later) :
    Account repository (readings ++ others) (journal ++ later) := by
  constructor
  · rw [Journal.requests_append, first.requests, second.requests, List.flatMap_append]
  · rw [Journal.loads_append, first.loads, second.loads, List.flatMap_append]

/-- A note needs no reading. -/
theorem Account.note (account : Account repository readings journal) (note : Note) :
    Account repository readings (journal ++ #[.noted note]) := by
  have noted : Account repository [] #[.noted note] := ⟨rfl, rfl⟩
  simpa only [List.append_nil] using account.append noted

end Account

end Reading

open LayerTree Reading

namespace LayerTree

/-- What is read in the work on a layer: nothing if the layer is only bound. -/
def readingsOf (known : Option Profiles) (tree : LayerTree) (layer : Layer) : List Reading :=
  if layer.role.isFound then [] else [⟨layer, known, tree.loaded⟩]

theorem readingsOf_of_found {known : Option Profiles} {tree : LayerTree} {layer : Layer}
    (isFound : layer.role.isFound = true) : readingsOf known tree layer = [] :=
  if_pos isFound

theorem readingsOf_of_ready {known : Option Profiles} {tree : LayerTree} {layer : Layer}
    (ready : layer.role.isFound = false) :
    readingsOf known tree layer = [⟨layer, known, tree.loaded⟩] :=
  if_neg (Bool.not_eq_true _ ▸ ready)

theorem mem_readingsOf {known : Option Profiles} {tree : LayerTree} {layer : Layer}
    {reading : Reading} : reading ∈ readingsOf known tree layer ↔
      layer.role.isFound = false ∧ reading = ⟨layer, known, tree.loaded⟩ := by
  cases isFound : layer.role.isFound with
  | true => simp [readingsOf_of_found isFound]
  | false => simp [readingsOf_of_ready isFound]

theorem account_work (repository : Repository) (known : Option Profiles) (tree : LayerTree)
    (layer : Layer) :
    Account repository (readingsOf known tree layer)
      (work repository known tree layer).recorded := by
  cases isFound : layer.role.isFound with
  | true =>
    obtain ⟨note, recorded⟩ := recorded_work_of_found repository known tree isFound
    rw [readingsOf_of_found isFound, recorded]
    exact ⟨rfl, rfl⟩
  | false =>
    obtain ⟨note, recorded⟩ := recorded_gatherFor repository known tree layer
    rw [readingsOf_of_ready isFound, recorded_work_of_ready isFound, recorded]
    constructor
    · rw [Journal.requests_append, Journal.requests_noted, List.flatMap_singleton]
      rfl
    · rw [Journal.loads_append, Journal.loads_noted, List.flatMap_singleton]
      rfl

end LayerTree

namespace Configuration

/-! ### Resolutions by their readings -/

section Reads

variable (repository : Repository) (initial : List Source) (request : ProfileRequest)

/-- A resolution comes to a tree, knowing what it does about profiles, by the given readings. -/
inductive Reads : Option Profiles → LayerTree → List Reading → Prop where
  | start {tree : LayerTree} (bound : ofBoundSources initial = .ok tree) : Reads none tree []
  | step {known : Option Profiles} {tree next : LayerTree} {layer : Layer}
      {readings : List Reading} (reads : Reads known tree readings)
      (selected : tree.next? known = some layer)
      (worked : (work repository known tree layer).outcome = .ok next) :
      Reads known next (readings ++ readingsOf known tree layer)
  | learn {tree : LayerTree} {readings : List Reading} {profiles : Profiles}
      (reads : Reads none tree readings) (finished : tree.next? none = none)
      (computed : (Lookup.overTree tree none .strict).computeProfiles request = .ok profiles) :
      Reads (some profiles) tree readings

/-- A resolution fails, after the given readings. -/
inductive Breaks : Error → List Reading → Prop where
  | start {cause : Error} (failed : ofBoundSources initial = .error cause) : Breaks cause []
  | step {known : Option Profiles} {tree : LayerTree} {layer : Layer} {cause : Error}
      {readings : List Reading} (reads : Reads repository initial request known tree readings)
      (selected : tree.next? known = some layer)
      (failed : (work repository known tree layer).outcome = .error cause) :
      Breaks cause (readings ++ readingsOf known tree layer)
  /-- There are steps left to take, but none left to be had. -/
  | limit {known : Option Profiles} {tree : LayerTree} {layer : Layer} {steps : Nat}
      {readings : List Reading} (reads : Reads repository initial request known tree readings)
      (selected : tree.next? known = some layer) : Breaks (.unfinished steps) readings
  | learn {tree : LayerTree} {cause : Error} {readings : List Reading}
      (reads : Reads repository initial request none tree readings)
      (failed : (Lookup.overTree tree none .strict).computeProfiles request = .error cause) :
      Breaks cause readings
  | check {profiles : Profiles} {tree : LayerTree} {cause : Error} {readings : List Reading}
      (reads : Reads repository initial request (some profiles) tree readings)
      (failed : checkSelecting tree.layers = .error cause) : Breaks cause readings

/-- A resolution comes to a tree, with the given journal. -/
def Arrives (known : Option Profiles) (tree : LayerTree) (journal : Journal) : Prop :=
  ∃ readings, Reads repository initial request known tree readings ∧
    Account repository readings journal

/-- A resolution fails, with the given journal. -/
def Stops (cause : Error) (journal : Journal) : Prop :=
  ∃ readings, Breaks repository initial request cause readings ∧
    Account repository readings journal

end Reads

section Leaves

variable {repository : Repository} {initial : List Source} {request : ProfileRequest}

theorem Arrives.note {known : Option Profiles} {tree : LayerTree} {journal : Journal}
    (arrives : Arrives repository initial request known tree journal) (note : Note) :
    Arrives repository initial request known tree (journal ++ #[.noted note]) := by
  obtain ⟨readings, reads, account⟩ := arrives
  exact ⟨readings, reads, account.note note⟩

/-! ### Every run ends so -/

theorem leaves_growFrom {known : Option Profiles} {tree : LayerTree} {journal : Journal}
    (arrives : Arrives repository initial request known tree journal) (done remaining : Nat) :
    (growFrom repository known done remaining tree).Leaves
      (fun final later => Arrives repository initial request known final (journal ++ later) ∧
        final.next? known = none)
      fun cause later => Stops repository initial request cause (journal ++ later) := by
  -- Whether or not steps are left, growing ends where no layer needs work.
  have finish {tree : LayerTree} {journal : Journal} {done : Nat}
      (arrives : Arrives repository initial request known tree journal)
      (selected : tree.next? known = none) :
      (do Run.debug ("Completed " ++ (Phase.ofKnown known).text ++ " after " ++ toString done ++
            " step(s)")
          return tree : Run LayerTree).Leaves
        (fun final later => Arrives repository initial request known final (journal ++ later) ∧
          final.next? known = none)
        fun cause later => Stops repository initial request cause (journal ++ later) :=
    Run.Leaves.after_note ⟨arrives.note _, selected⟩
  induction remaining generalizing done tree journal with
  | zero =>
    rw [growFrom]
    cases selected : tree.next? known with
    | none => exact finish arrives selected
    | some layer =>
      obtain ⟨readings, reads, account⟩ := arrives
      exact ⟨readings, .limit reads selected, by rwa [Run.recorded_fail, Array.append_empty]⟩
  | succ remaining inductionHypothesis =>
    rw [growFrom]
    cases selected : tree.next? known with
    | none => exact finish arrives selected
    | some layer =>
      obtain ⟨readings, reads, account⟩ := arrives
      have both := account.append (account_work repository known tree layer)
      have first : (work repository known tree layer).Leaves
          (fun next earlier => Arrives repository initial request known next (journal ++ earlier))
          fun cause earlier => Stops repository initial request cause (journal ++ earlier) := by
        rw [Run.Leaves]
        split
        · next next worked => exact ⟨_, .step reads selected worked, both⟩
        · next cause failed => exact ⟨_, .step reads selected failed, both⟩
      refine first.bind fun next earlier arrivesNext => ?_
      simp only [← Array.append_assoc]
      exact inductionHypothesis arrivesNext (done + 1)

theorem leaves_grow {known : Option Profiles} {tree : LayerTree} {journal : Journal}
    (arrives : Arrives repository initial request known tree journal) :
    (tree.grow repository known).Leaves
      (fun final later => Arrives repository initial request known final (journal ++ later) ∧
        final.next? known = none)
      fun cause later => Stops repository initial request cause (journal ++ later) :=
  leaves_growFrom arrives 0 repository.stepLimit

end Leaves

/-- A resolution ends with a tree that it comes to and in which nothing is left to do, or it fails,
and the readings up to there account for its journal. -/
theorem leaves_resolve (repository : Repository) (initial : List Source)
    (request : ProfileRequest) :
    (resolve repository initial request).Leaves
      (fun configuration journal =>
        Arrives repository initial request configuration.known configuration.tree journal ∧
          configuration.tree.next? configuration.known = none ∧
          checkSelecting configuration.tree.layers = .ok ())
      (Stops repository initial request) := by
  have start : (Run.ofExcept (ofBoundSources initial)).Leaves
      (Arrives repository initial request none) (Stops repository initial request) :=
    Run.leaves_ofExcept (fun tree bound => ⟨[], .start bound, account_empty⟩)
      fun cause failed => ⟨[], .start failed, account_empty⟩
  refine start.bind fun given givenJournal arrivesGiven => ?_
  refine (leaves_grow arrivesGiven).bind fun first firstJournal ⟨arrivesFirst, _⟩ => ?_
  simp only [← Array.append_assoc]
  refine (leaves_grow arrivesFirst).bind fun second secondJournal ⟨arrivesSecond, finished⟩ => ?_
  simp only [← Array.append_assoc]
  obtain ⟨readings, reads, account⟩ := arrivesSecond
  have learn : (Run.ofExcept
      ((Lookup.overTree second none .strict).computeProfiles request)).Leaves
      (fun profiles later => Arrives repository initial request (some profiles) second
        (givenJournal ++ firstJournal ++ secondJournal ++ later))
      fun cause later => Stops repository initial request cause
        (givenJournal ++ firstJournal ++ secondJournal ++ later) := by
    refine Run.leaves_ofExcept (fun profiles computed => ?_) fun cause failed => ?_
    · rw [Array.append_empty]
      exact ⟨readings, .learn reads finished computed, account⟩
    · rw [Array.append_empty]
      exact ⟨readings, .learn reads failed, account⟩
  refine learn.bind fun profiles learnJournal arrivesLearn => ?_
  simp only [← Array.append_assoc]
  refine Run.Leaves.after_note ?_
  simp only [← Array.append_assoc]
  refine (leaves_grow (arrivesLearn.note _)).bind fun tree journal ⟨arrives, ended⟩ => ?_
  simp only [← Array.append_assoc]
  cases checked : checkSelecting tree.layers with
  | error cause =>
    show Stops repository initial request cause (_ ++ #[])
    rw [Array.append_empty]
    obtain ⟨readings, reads, account⟩ := arrives
    exact ⟨readings, .check reads checked, account⟩
  | ok => exact ⟨arrives.note _, ended, checked⟩

end Configuration

end LayeredConfig
