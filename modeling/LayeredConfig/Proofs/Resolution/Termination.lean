/-
This file proves that every resolution ends whose finders lead to finitely many identities.

A step either loads a source of an identity that is not in the tree yet, or it brings one layer
further that will not need that work again. The first happens at most once for each identity.
Between two such steps the work shrinks: a found layer needs to be bound and perhaps to have its
imports read, a bound one only the latter. So the identities that are not loaded and the work that
is left, in this order, count the steps down, however the imports lead back to each other.
-/

import LayeredConfig.Proofs.Import.Table
import LayeredConfig.Proofs.Lookup.Failure
import LayeredConfig.Proofs.Resolution.Reach
import Mathlib.Algebra.Order.Ring.Nat
import Mathlib.Data.Finset.Card
import Mathlib.Data.Prod.Lex

namespace LayeredConfig

open LayerTree

/-! ### The work that is left -/

namespace Entry

/-- The steps that an entry may still need in a phase: to bind it and to read its imports. -/
def weight (phase : Phase) (entry : Entry) : Nat :=
  if entry.role.isFound then 2 else if (entry.children phase).isNone then 1 else 0

theorem weight_of_found {phase : Phase} {entry : Entry} (isFound : entry.role.isFound = true) :
    entry.weight phase = 2 :=
  if_pos isFound

theorem weight_of_pending {phase : Phase} {entry : Entry} (ready : entry.role.isFound = false)
    (pending : entry.children phase = none) : entry.weight phase = 1 := by
  rw [weight, ready, pending]
  rfl

theorem weight_of_attached {phase : Phase} {entry : Entry} (ready : entry.role.isFound = false)
    {stamps : List Nat} (attached : entry.children phase = some stamps) :
    entry.weight phase = 0 := by
  rw [weight, ready, attached]
  rfl

theorem weight_le_of_ready {phase : Phase} {entry : Entry} (ready : entry.role.isFound = false) :
    entry.weight phase ≤ 1 := by
  cases attached : entry.children phase with
  | none => rw [weight_of_pending ready attached]
  | some => rw [weight_of_attached ready attached]; exact Nat.zero_le 1

end Entry

namespace LayerTree

def weight (phase : Phase) (tree : LayerTree) : Nat :=
  (tree.entries.map (Entry.weight phase)).sum

/-- The identities that may still be loaded. -/
def unloaded (ids : Finset String) (tree : LayerTree) : Finset String :=
  ids.filter (· ∉ tree.loaded)

/-- What counts the steps of a phase down. -/
def workLeft (ids : Finset String) (phase : Phase) (tree : LayerTree) : Nat ×ₗ Nat :=
  toLex ((tree.unloaded ids).card, tree.weight phase)

section WorkLeft

variable {ids : Finset String} {phase : Phase} {tree next : LayerTree} {layer : Layer}
  {gathered : List (Resource × Bundle)}

theorem weight_lt_of_edited {inside : List Entry} {before after : Entry}
    (edited : Edited inside [] before after tree.entries next.entries)
    (lighter : after.weight phase < before.weight phase) :
    next.weight phase < tree.weight phase := by
  rw [weight, weight]
  generalize tree.entries = old at edited
  generalize next.entries = new at edited
  cases edited
  simp only [List.map_append, List.map_cons, List.map_nil, List.sum_append, List.sum_cons,
    List.sum_nil]
  omega

/-- A step that loads no source has less work after it. -/
theorem Stepped.weight_lt (stepped : Stepped phase tree next layer gathered)
    (empty : ∀ load ∈ gathered, load.2.sources = []) :
    next.weight phase < tree.weight phase := by
  cases stepped with
  | bound role edited _ =>
    refine weight_lt_of_edited edited (Nat.lt_of_le_of_lt (Entry.weight_le_of_ready rfl) ?_)
    rw [Entry.weight_of_found (by show layer.role.isFound = true; rw [role]; rfl)]
    exact Nat.one_lt_two
  | attached ready pending edited _ =>
    have noChildren : childrenOf phase gathered = [] :=
      List.flatMap_eq_nil_iff.mpr fun load member => by
        show load.2.sources.reverse.map _ = []
        rw [empty load member]
        rfl
    have nothingNew : tree.newLayers phase gathered = [] :=
      List.eq_nil_of_length_eq_zero (by rw [length_newLayers, noChildren]; rfl)
    rw [nothingNew] at edited
    refine weight_lt_of_edited edited ?_
    have isPending : layer.entry.children phase = none := by
      rw [Layer.children_entry, pending, Option.map_none]
    rw [Entry.weight_of_attached (Role.isFound_of_open (Role.isClosed_opened ready)) (if_pos rfl),
      Entry.weight_of_pending ready isPending]
    exact Nat.zero_lt_one

theorem Stepped.unloaded_subset (stepped : Stepped phase tree next layer gathered) :
    next.unloaded ids ⊆ tree.unloaded ids := by
  intro id member
  rw [unloaded, Finset.mem_filter] at member ⊢
  exact ⟨member.1, fun isLoaded => member.2 (stepped.mem_loaded.mpr (Or.inl isLoaded))⟩

/-- A step that loads a source leaves fewer identities to load. -/
theorem Stepped.unloaded_lt (stepped : Stepped phase tree next layer gathered)
    {load : Resource × Bundle} (member : load ∈ gathered) (notEmpty : load.2.sources ≠ [])
    (within : load.1.id ∈ ids) (fresh : load.1.id ∉ tree.loaded) :
    (next.unloaded ids).card < (tree.unloaded ids).card := by
  refine Finset.card_lt_card (Finset.ssubset_iff_of_subset stepped.unloaded_subset |>.mpr
    ⟨load.1.id, Finset.mem_filter.mpr ⟨within, fresh⟩, fun still => ?_⟩)
  have isLoaded := stepped.mem_loaded.mpr (Or.inr ⟨load, member, rfl, notEmpty⟩)
  exact (Finset.mem_filter.mp still).2 isLoaded

end WorkLeft

/-! ### Steps come to an end -/

/-- One tree is the next one after another while the given profiles are known. -/
def Follows (repository : Repository) (known : Option Profiles) (next tree : LayerTree) : Prop :=
  ∃ layer, tree.next? known = some layer ∧ (work repository known tree layer).outcome = .ok next

section Ending

variable {repository : Repository} {ids : Finset String} {known : Option Profiles}
  {tree next : LayerTree}

theorem Follows.sound (sound : tree.Sound known) (follows : Follows repository known next tree) :
    next.Sound known := by
  obtain ⟨layer, selected, worked⟩ := follows
  exact (stepped_of_work sound selected worked).sound sound

theorem Follows.workLeft_lt (within : repository.FindsWithin ids) (sound : tree.Sound known)
    (follows : Follows repository known next tree) :
    next.workLeft ids (Phase.ofKnown known) < tree.workLeft ids (Phase.ofKnown known) := by
  obtain ⟨layer, selected, worked⟩ := follows
  have stepped := stepped_of_work sound selected worked
  rw [workLeft, workLeft, Prod.Lex.toLex_lt_toLex]
  by_cases empty : ∀ load ∈ (work repository known tree layer).recorded.loads, load.2.sources = []
  · have noMore : next.unloaded ids ⊆ tree.unloaded ids := stepped.unloaded_subset
    rcases (Finset.card_le_card noMore).lt_or_eq with fewer | same
    · exact Or.inl fewer
    · exact Or.inr ⟨same, stepped.weight_lt empty⟩
  · push Not at empty
    obtain ⟨load, member, notEmpty⟩ := empty
    exact Or.inl (stepped.unloaded_lt member notEmpty (work_within within load member)
      (work_fresh load member))

/-- From a sound tree, steps come to an end. -/
theorem acc_follows (within : repository.FindsWithin ids) (sound : tree.Sound known) :
    Acc (Follows repository known) tree := by
  induction left : tree.workLeft ids (Phase.ofKnown known) using WellFoundedLT.induction
    generalizing tree with
  | _ left inductionHypothesis =>
    subst left
    exact ⟨_, fun next follows =>
      inductionHypothesis _ (follows.workLeft_lt within sound) (follows.sound sound) rfl⟩

end Ending

end LayerTree

/-! ### Limits -/

/-- The run was given up because it had taken all the steps that it was allowed. -/
def Run.GivenUp {Result : Type} (run : Run Result) : Prop :=
  ∃ steps, run.outcome = .error (.unfinished steps)

/-- From some limit on the run is always the same, and it is not given up. -/
def Settles {Result : Type} (run : Nat → Run Result) : Prop :=
  ∃ settled : Run Result, ¬ settled.GivenUp ∧
    ∃ enough, ∀ limit, enough ≤ limit → run limit = settled

section Settles

variable {First Second : Type}

theorem Run.givenUp_bind {run : Run First} {next : First → Run Second} :
    (run >>= next).GivenUp ↔
      run.GivenUp ∨ ∃ value, run.outcome = .ok value ∧ (next value).GivenUp := by
  simp only [GivenUp, outcome_bind, bind_eq_error, exists_or]
  refine or_congr Iff.rfl ⟨?_, ?_⟩
  · rintro ⟨steps, value, succeeded, givenUp⟩
    exact ⟨value, succeeded, steps, givenUp⟩
  · rintro ⟨value, succeeded, steps, givenUp⟩
    exact ⟨steps, value, succeeded, givenUp⟩

theorem not_givenUp_ofExcept {outcome : Except Error First} (fails : FailsInLookup outcome) :
    ¬ (Run.ofExcept outcome).GivenUp := by
  rintro ⟨steps, givenUp⟩
  cases fails _ givenUp

/-- A run without limits settles. -/
theorem settles_of_not_givenUp {run : Run First} (notGivenUp : ¬ run.GivenUp) :
    Settles fun _ => run :=
  ⟨run, notGivenUp, 0, fun _ _ => rfl⟩

theorem settles_of_succ {run : Nat → Run First} (settles : Settles fun limit => run (limit + 1)) :
    Settles run := by
  obtain ⟨settled, notGivenUp, enough, steady⟩ := settles
  refine ⟨settled, notGivenUp, enough + 1, fun limit more => ?_⟩
  obtain ⟨smaller, rfl⟩ := Nat.exists_eq_add_one_of_ne_zero (by omega : limit ≠ 0)
  exact steady smaller (by omega)

/-- A run settles if its first part does, and the rest does after each value of the first part. -/
theorem Settles.bind {run : Nat → Run First} {next : Nat → First → Run Second}
    (first : Settles run)
    (second : ∀ limit value, (run limit).outcome = .ok value →
      Settles fun limit => next limit value) :
    Settles fun limit => run limit >>= next limit := by
  obtain ⟨settled, notGivenUp, enough, steady⟩ := first
  cases outcome : settled.outcome with
  | error cause =>
    have never {value : First} (succeeded : settled.outcome = .ok value) : False := by
      rw [outcome] at succeeded
      cases succeeded
    refine ⟨settled >>= next 0, ?_, enough, fun limit more => ?_⟩
    · rw [Run.givenUp_bind]
      rintro (givenUp | ⟨value, succeeded, _⟩)
      · exact notGivenUp givenUp
      · exact never succeeded
    · show run limit >>= next limit = _
      rw [steady limit more]
      exact Run.bind_congr fun value succeeded => (never succeeded).elim
  | ok value =>
    obtain ⟨rest, restNotGivenUp, further, restSteady⟩ :=
      second enough value (by rw [steady enough (Nat.le_refl _), outcome])
    refine ⟨settled >>= fun _ => rest, ?_, enough ⊔ further, fun limit more => ?_⟩
    · rw [Run.givenUp_bind]
      rintro (givenUp | ⟨_, _, givenUp⟩)
      · exact notGivenUp givenUp
      · exact restNotGivenUp givenUp
    · show run limit >>= next limit = _
      rw [steady limit (by omega)]
      refine Run.bind_congr fun other succeeded => ?_
      rw [outcome] at succeeded
      cases succeeded
      exact restSteady limit (by omega)

end Settles

/-! ### Growing settles -/

namespace LayerTree

section Growing

variable {repository : Repository} {ids : Finset String} {known : Option Profiles}
  {tree : LayerTree}

/-- The failure of an import is told with the layer, so it is never that of the whole phase. -/
theorem inLayer_ne_unfinished (cause : Error) (layer : String) (steps : Nat) :
    cause.inLayer layer ≠ .unfinished steps := by
  intro same
  cases cause <;> cases same

theorem not_givenUp_work (layer : Layer) : ¬ (work repository known tree layer).GivenUp := by
  rintro ⟨steps, givenUp⟩
  cases isFound : layer.role.isFound with
  | true =>
    rw [outcome_work_of_found isFound] at givenUp
    cases failsInLookup_bindLayer _ _ _ _ givenUp
  | false =>
    rw [outcome_work_of_ready isFound] at givenUp
    split at givenUp
    · cases givenUp
    · exact inLayer_ne_unfinished _ _ _ (Except.error.inj givenUp)

theorem settles_growFrom (within : repository.FindsWithin ids) (sound : tree.Sound known)
    (done : Nat) : Settles fun limit => growFrom repository known done limit tree := by
  -- Of the trees that follow, each is given a limit that is lower by the step that led to it.
  have ends := acc_follows within sound
  induction ends generalizing done with
  | intro tree _ inductionHypothesis =>
    cases selected : tree.next? known with
    | none =>
      have finished (limit : Nat) :
          growFrom repository known done limit tree = growFrom repository known done 0 tree := by
        rw [growFrom, growFrom, selected]
      simp only [finished]
      refine settles_of_not_givenUp ?_
      rintro ⟨steps, givenUp⟩
      rw [growFrom, selected] at givenUp
      cases givenUp
    | some layer =>
      have oneMore (limit : Nat) : growFrom repository known done (limit + 1) tree =
          work repository known tree layer >>= growFrom repository known (done + 1) limit := by
        rw [growFrom, selected]
      refine settles_of_succ ?_
      simp only [oneMore]
      refine (settles_of_not_givenUp (not_givenUp_work layer)).bind fun _ next worked => ?_
      have follows : Follows repository known next tree := ⟨layer, selected, worked⟩
      exact inductionHypothesis next follows (follows.sound sound) (done + 1)

theorem sound_growFrom {final : LayerTree} (sound : tree.Sound known) {done limit : Nat}
    (grown : (growFrom repository known done limit tree).outcome = .ok final) :
    final.Sound known := by
  induction limit generalizing done tree with
  | zero =>
    rw [growFrom] at grown
    split at grown
    · cases grown
      exact sound
    · cases grown
  | succ limit inductionHypothesis =>
    rw [growFrom] at grown
    split at grown
    · cases grown
      exact sound
    · next layer selected =>
      obtain ⟨next, worked, rest⟩ := Run.outcome_bind_eq_ok.mp grown
      exact inductionHypothesis (Follows.sound sound ⟨layer, selected, worked⟩) rest

end Growing

end LayerTree

/-! ### Resolutions settle -/

namespace Repository

/-- The repository with another limit on the steps of a phase. -/
def limitedTo (limit : Nat) (repository : Repository) : Repository :=
  { repository with stepLimit := limit }

theorem findAll_limitedTo (limit : Nat) (repository : Repository) (context : FindContext)
    (locations : List Location) :
    (repository.limitedTo limit).findAll context locations =
      repository.findAll context locations := by
  induction locations with
  | nil => rfl
  | cons location rest inductionHypothesis =>
    rw [findAll, findAll, inductionHypothesis]
    rfl

theorem readAll_limitedTo (limit : Nat) (repository : Repository) (seen : List String)
    (resources : List Resource) :
    (repository.limitedTo limit).readAll seen resources = repository.readAll seen resources := by
  induction resources generalizing seen with
  | nil => rfl
  | cons resource rest inductionHypothesis =>
    rw [readAll, readAll, inductionHypothesis, inductionHypothesis]
    rfl

theorem gather_limitedTo (limit : Nat) (repository : Repository) (context : FindContext)
    (locations : List Location) (loaded : List String) :
    (repository.limitedTo limit).gather context locations loaded =
      repository.gather context locations loaded := by
  simp only [gather, findAll_limitedTo, readAll_limitedTo]

end Repository

namespace LayerTree

/-- The limit has no part in the work itself. -/
theorem growFrom_limitedTo (limit : Nat) (repository : Repository) (known : Option Profiles)
    (done remaining : Nat) (tree : LayerTree) :
    growFrom (repository.limitedTo limit) known done remaining tree =
      growFrom repository known done remaining tree := by
  induction remaining generalizing done tree with
  | zero => rw [growFrom, growFrom]
  | succ remaining inductionHypothesis =>
    rw [growFrom, growFrom]
    simp only [work, gatherFor, Repository.gather_limitedTo, inductionHypothesis]

theorem settles_grow {repository : Repository} {ids : Finset String} {known : Option Profiles}
    {tree : LayerTree} (within : repository.FindsWithin ids) (sound : tree.Sound known) :
    Settles fun limit => tree.grow (repository.limitedTo limit) known := by
  simp only [grow, growFrom_limitedTo]
  exact settles_growFrom within sound 0

theorem sound_grow {repository : Repository} {known : Option Profiles} {tree final : LayerTree}
    (sound : tree.Sound known) (grown : (tree.grow repository known).outcome = .ok final) :
    final.Sound known :=
  sound_growFrom sound grown

end LayerTree

namespace Configuration

open Repository

theorem checkSelecting_ne_unfinished (layers : List Layer) (steps : Nat) :
    checkSelecting layers ≠ .error (.unfinished steps) := by
  induction layers with
  | nil =>
    intro same
    cases same
  | cons layer rest inductionHypothesis =>
    rw [checkSelecting]
    split
    · split
      · intro same
        cases same
      · exact inductionHypothesis
    · exact inductionHypothesis

/-- Every resolution ends whose finders lead to finitely many identities: no tree that it comes to
has steps after it without end, and if a phase may take steps enough, how many it may take has no
influence on the resolution, which is then not given up. -/
theorem resolve_ends (repository : Repository) (ids : Finset String)
    (within : repository.FindsWithin ids) (initial : List Source) (request : ProfileRequest) :
    (∀ known tree loads, Reaches repository initial request known tree loads →
      Acc (Follows repository known) tree) ∧
    Settles fun limit => resolve (repository.limitedTo limit) initial request := by
  refine ⟨fun known tree loads reached => acc_follows within reached.sound, ?_⟩
  unfold resolve
  refine (settles_of_not_givenUp (not_givenUp_ofExcept
    (failsInLookup_ofBoundSources initial))).bind fun _ given bound => ?_
  have soundGiven := (start_of_ofBoundSources bound).1
  refine (settles_grow within soundGiven).bind fun _ first grown => ?_
  have soundFirst := sound_grow soundGiven grown
  refine (settles_grow within soundFirst).bind fun _ second grownAgain => ?_
  have soundSecond := sound_grow soundFirst grownAgain
  refine (settles_of_not_givenUp (not_givenUp_ofExcept
    (Lookup.failsInLookup_computeProfiles _ request))).bind fun _ profiles _ => ?_
  refine (settles_of_not_givenUp ?_).bind fun _ _ _ => ?_
  · rintro ⟨steps, givenUp⟩
    cases givenUp
  refine (settles_grow within (soundSecond.learn profiles)).bind fun _ tree _ => ?_
  refine settles_of_not_givenUp ?_
  rw [Run.givenUp_bind]
  rintro (⟨steps, givenUp⟩ | ⟨_, _, steps, givenUp⟩)
  · exact checkSelecting_ne_unfinished _ _ givenUp
  · cases givenUp

/-- Bundles that import each other and themselves are no hindrance. -/
theorem resolve_ends_of_cyclicTable :
    (ofTable cyclicTable).FindsWithin (cyclicTable.map Prod.fst).toFinset ∧
      Settles fun limit => resolve ((ofTable cyclicTable).limitedTo limit) cyclicSources .unset :=
  ⟨findsWithin_ofTable _, (resolve_ends _ _ (findsWithin_ofTable _) _ _).2⟩

end Configuration

end LayeredConfig
