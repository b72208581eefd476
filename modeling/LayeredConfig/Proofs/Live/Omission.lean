/-
This file shows that a miss which is ignored leaves no trace in an import.

A location that is missing and has no variants leads to no resource. If its miss is ignored, a list
is imported alike whether or not the location stands in it: the import comes to the same resources
with the same bundles, in the same order, or to the same error.

Finders and readers that change with the calls made to them could notice the difference. So for
these it is asked that none of them is moved by the calls about the location. Then two imports, of
the list and of the list without the location, have at each point the same calls behind them but for
such calls, and get the same answers.
-/

import LayeredConfig.Proofs.Import.Table
import LayeredConfig.Proofs.Live.Gathering

namespace LayeredConfig

/-! ### Calls that are left out -/

namespace Call

/-- The second calls are the first ones without some that are idle. -/
inductive Spared (idle : Call → Prop) : List Call → List Call → Prop
  | none : Spared idle [] []
  | kept (call : Call) {calls fewer : List Call} (rest : Spared idle calls fewer) :
    Spared idle (call :: calls) (call :: fewer)
  | left {call : Call} {calls fewer : List Call} (isIdle : idle call)
    (rest : Spared idle calls fewer) : Spared idle (call :: calls) fewer

section Spared

variable {idle : Call → Prop} {calls fewer : List Call}

theorem spared_refl (calls : List Call) : Spared idle calls calls := by
  induction calls with
  | nil => exact .none
  | cons call rest inductionHypothesis => exact .kept call inductionHypothesis

theorem Spared.append_left (spared : Spared idle calls fewer) {made : List Call}
    (areIdle : ∀ call ∈ made, idle call) : Spared idle (calls ++ made) fewer := by
  induction spared with
  | none =>
    induction made with
    | nil => exact .none
    | cons call rest inductionHypothesis =>
      refine .left (areIdle call List.mem_cons_self) (inductionHypothesis fun other member => ?_)
      exact areIdle other (List.mem_cons_of_mem _ member)
  | kept call _ inductionHypothesis => exact .kept call inductionHypothesis
  | left isIdle _ inductionHypothesis => exact .left isIdle inductionHypothesis

theorem Spared.append (spared : Spared idle calls fewer) (more : List Call) :
    Spared idle (calls ++ more) (fewer ++ more) := by
  induction spared with
  | none => exact spared_refl more
  | kept call _ inductionHypothesis => exact .kept call inductionHypothesis
  | left isIdle _ inductionHypothesis => exact .left isIdle inductionHypothesis

end Spared

/-- A call by which a location is looked for. -/
def IsAbout (context : FindContext) (location : Location) : Call → Prop
  | offered _ told asked => told = context ∧ asked = location
  | requested (.find _ told asked) => told = context ∧ asked = location
  | requested (.findVariants _ told asked _) => told = context ∧ asked = location
  | _ => False

end Call

/-! ### Dialogues that match -/

namespace Dialogue

variable {First Second : Type} {idle : Call → Prop}

/-- After calls of which some that are idle are left out for the second dialogue, both come to the
same, and again with calls of which some that are idle are left out. -/
def Matches (idle : Call → Prop) (first second : Dialogue First) : Prop :=
  ∀ calls fewer, Call.Spared idle calls fewer →
    (first calls).1 = (second fewer).1 ∧ Call.Spared idle (first calls).2 (second fewer).2

theorem matches_pure (value : First) : Matches idle (pure value) (pure value) :=
  fun _ _ spared => ⟨rfl, spared⟩

theorem matches_call (made : Call) : Matches idle (call made) (call made) :=
  fun _ _ spared => ⟨rfl, spared.append [made]⟩

theorem matches_ofRun (run : Run First) : Matches idle (ofRun run) (ofRun run) :=
  fun _ _ spared => ⟨rfl, spared.append _⟩

theorem Matches.bind {first other : Dialogue First} {next otherNext : First → Dialogue Second}
    (both : Matches idle first other)
    (follow : ∀ value calls later, first calls = (.ok value, later) →
      Matches idle (next value) (otherNext value)) :
    Matches idle (first >>= next) (other >>= otherNext) := by
  intro calls fewer spared
  obtain ⟨same, after⟩ := both calls fewer spared
  rcases ended : first calls with ⟨cause | value, later⟩ <;>
    rcases otherEnded : other fewer with ⟨otherCause | otherValue, otherLater⟩ <;>
    rw [ended, otherEnded] at same after
  · rw [bind_of_error ended, bind_of_error otherEnded, Except.error.inj same]
    exact ⟨rfl, after⟩
  · cases same
  · cases same
  · rw [bind_of_ok ended, bind_of_ok otherEnded, ← Except.ok.inj same]
    exact follow value calls later ended later otherLater after

theorem bind_pure (dialogue : Dialogue First) :
    (dialogue >>= fun value => pure value) = dialogue := by
  funext calls
  rcases ended : dialogue calls with ⟨cause | value, later⟩
  · exact bind_of_error ended
  · exact bind_of_ok ended

/-- A dialogue may look at the calls so far if it goes on alike without those that are idle. -/
theorem matches_soFar {next : List Call → Dialogue Second}
    (same : ∀ calls fewer, Call.Spared idle calls fewer → next calls = next fewer)
    (goesOn : ∀ calls, Matches idle (next calls) (next calls)) :
    Matches idle (soFar >>= next) (soFar >>= next) := by
  intro calls fewer spared
  have followed := goesOn calls calls fewer spared
  rwa [show (next calls) fewer = (next fewer) fewer by rw [same calls fewer spared]] at followed

end Dialogue

/-! ### Finders and readers that are not moved -/

namespace LiveRepository

open Dialogue

/-- No finder and no reader is moved by a call that is idle: each is as if the call was not made. -/
structure Unmoved (live : LiveRepository) (idle : Call → Prop) : Prop where
  finder : ∀ finder ∈ live.finders, ∀ earlier call later, idle call →
    finder (earlier ++ call :: later) = finder (earlier ++ later)
  reader : ∀ reader ∈ live.readers, ∀ earlier call later, idle call →
    reader (earlier ++ call :: later) = reader (earlier ++ later)

/-- What no single idle call moves, no number of them moves. -/
theorem same_of_spared {Kind : Type} {idle : Call → Prop} {partner : List Call → Kind}
    (unmoved : ∀ earlier call later, idle call →
      partner (earlier ++ call :: later) = partner (earlier ++ later))
    {calls fewer : List Call} (spared : Call.Spared idle calls fewer) :
    partner calls = partner fewer := by
  have behind (earlier : List Call) : partner (earlier ++ calls) = partner (earlier ++ fewer) := by
    induction spared generalizing earlier with
    | none => rfl
    | kept call _ inductionHypothesis =>
      rw [List.append_cons, inductionHypothesis, ← List.append_cons]
    | left isIdle _ inductionHypothesis => rw [unmoved _ _ _ isIdle, inductionHypothesis]
  exact behind []

section Matches

variable {live : LiveRepository} {context : FindContext} {idle : Call → Prop}

theorem matches_firstTaking {Kind : Type} {asking : Kind → Call} {takes : Kind → Bool}
    {partners : List (List Call → Kind)}
    (unmoved : ∀ partner ∈ partners, ∀ calls fewer, Call.Spared idle calls fewer →
      partner calls = partner fewer) :
    Matches idle (firstTaking asking takes partners) (firstTaking asking takes partners) := by
  induction partners with
  | nil => exact matches_pure none
  | cons changing rest inductionHypothesis =>
    refine matches_soFar (fun calls fewer spared => ?_) fun calls => ?_
    · rw [unmoved changing List.mem_cons_self calls fewer spared]
    · refine (matches_call _).bind fun _ _ _ _ => ?_
      split
      · exact matches_pure _
      · exact inductionHypothesis fun partner member =>
          unmoved partner (List.mem_cons_of_mem _ member)

variable (unmoved : live.Unmoved idle)

include unmoved

theorem Unmoved.sameFinder {finder : List Call → Finder} (isFinder : finder ∈ live.finders)
    {calls fewer : List Call} (spared : Call.Spared idle calls fewer) :
    finder calls = finder fewer :=
  same_of_spared (unmoved.finder finder isFinder) spared

theorem Unmoved.sameReader {reader : List Call → Reader} (isReader : reader ∈ live.readers)
    {calls fewer : List Call} (spared : Call.Spared idle calls fewer) :
    reader calls = reader fewer :=
  same_of_spared (unmoved.reader reader isReader) spared

theorem Unmoved.after_eq {calls fewer : List Call} (spared : Call.Spared idle calls fewer) :
    live.after calls = live.after fewer := by
  rw [after, after, Repository.mk.injEq]
  refine ⟨List.map_congr_left fun finder isFinder => unmoved.sameFinder isFinder spared,
    List.map_congr_left fun reader isReader => unmoved.sameReader isReader spared, rfl, rfl⟩

theorem matches_findOne (location : Location) :
    Matches idle (live.findOne context location) (live.findOne context location) := by
  refine (matches_firstTaking fun finder isFinder calls fewer spared =>
    unmoved.sameFinder isFinder spared).bind fun finder? _ _ taken => ?_
  cases finder? with
  | none => exact matches_ofRun _
  | some finder =>
    have isFinder := mem_of_firstTaking taken
    refine matches_soFar (fun calls fewer spared => ?_) fun calls => ?_
    · rw [unmoved.after_eq spared, unmoved.sameFinder isFinder spared]
    · refine (matches_ofRun _).bind fun base _ _ _ => ?_
      refine matches_soFar (fun calls fewer spared => ?_) fun calls => ?_
      · rw [unmoved.sameFinder isFinder spared]
      · exact (matches_ofRun _).bind fun _ _ _ _ => matches_pure _

theorem matches_findAll (locations : List Location) :
    Matches idle (live.findAll context locations) (live.findAll context locations) := by
  induction locations with
  | nil => exact matches_pure []
  | cons location rest inductionHypothesis =>
    exact (matches_findOne unmoved location).bind fun _ _ _ _ =>
      inductionHypothesis.bind fun _ _ _ _ => matches_pure _

theorem matches_readOne (resource : Resource) :
    Matches idle (live.readOne resource) (live.readOne resource) := by
  refine (matches_firstTaking fun reader isReader calls fewer spared =>
    unmoved.sameReader isReader spared).bind fun reader? _ _ taken => ?_
  cases reader? with
  | none => exact matches_ofRun _
  | some reader =>
    have isReader := mem_of_firstTaking taken
    refine matches_soFar (fun calls fewer spared => ?_) fun calls => matches_ofRun _
    rw [unmoved.after_eq spared, unmoved.sameReader isReader spared]

theorem matches_readAll (seen : List String) (resources : List Resource) :
    Matches idle (live.readAll seen resources) (live.readAll seen resources) := by
  induction resources generalizing seen with
  | nil => exact matches_pure []
  | cons resource rest inductionHypothesis =>
    rw [readAll]
    split
    · exact inductionHypothesis seen
    · exact (matches_readOne unmoved resource).bind fun _ _ _ _ =>
        (inductionHypothesis _).bind fun _ _ _ _ => matches_pure _

end Matches

/-! ### A location that is passed over -/

/-- What one location leads to is found by calls about it. -/
theorem Found.isAbout {live : LiveRepository} {context : FindContext} {location : Location}
    {calls later : List Call} {found : List Resource}
    (isFound : live.Found context location calls found later) :
    ∃ made, later = calls ++ made ∧ ∀ call ∈ made, call.IsAbout context location := by
  obtain ⟨taken, _, varied⟩ := isFound
  have isOffer (finder : Finder) :
      (Call.offered finder.name context location).IsAbout context location := ⟨rfl, rfl⟩
  have isFind (name : String) :
      (Call.requested (.find name context location)).IsAbout context location := ⟨rfl, rfl⟩
  have isVariants (name : String) (profiles : Profiles) : (Call.requested
      (.findVariants name context location profiles)).IsAbout context location := ⟨rfl, rfl⟩
  obtain ⟨offers, isAsked, areOffers⟩ := adds_firstTaking isOffer
    (fun finder => finder.takes context location) live.finders calls
  rw [taken] at isAsked
  obtain rfl : _ = calls ++ offers := isAsked
  cases varied with
  | unknown =>
    refine ⟨_, List.append_assoc _ _ _, ?_⟩
    simpa [or_imp, forall_and] using ⟨areOffers, isFind _⟩
  | known isKnown answered =>
    refine ⟨_, (List.append_assoc _ _ _).trans (List.append_assoc _ _ _), ?_⟩
    simpa [or_imp, forall_and] using ⟨areOffers, isFind _, isVariants _ _⟩

/-- Whatever was called before, the first finder that takes the location reports that it is missing
and has no variants of it, and this miss is ignored. -/
structure PassesOver (live : LiveRepository) (context : FindContext) (location : Location) :
    Prop where
  misses : ∀ calls, ∃ finder asked,
    firstTaking (fun finder : Finder => .offered finder.name context location)
      (fun finder => finder.takes context location) live.finders calls =
        (.ok (some finder), asked) ∧
    (∃ cause, (finder asked).find context location = .error cause ∧ cause.isMissing = true) ∧
    ∀ profiles, context.known = some profiles →
      (finder (asked ++ [.requested (.find (finder asked).name context location)])).findVariants
        context location profiles = .ok []
  ignored : live.policy = .ignore ∨ location.optional = true

section PassesOver

variable {live : LiveRepository} {context : FindContext} {location : Location}
  (passes : live.PassesOver context location)

include passes

theorem PassesOver.found (calls : List Call) :
    ∃ later, live.Found context location calls [] later := by
  obtain ⟨finder, asked, taken, ⟨cause, answered, isMissing⟩, noVariants⟩ := passes.misses calls
  have accepted : live.policy.Accepts location ((finder asked).find context location) none := by
    rw [answered]
    exact ⟨rfl, isMissing, passes.ignored⟩
  cases isKnown : context.known with
  | none => exact ⟨_, .intro taken accepted (.unknown isKnown)⟩
  | some profiles => exact ⟨_, .intro taken accepted (.known isKnown (noVariants profiles isKnown))⟩

/-- To look for the location comes to nothing. -/
theorem PassesOver.matches_findOne :
    Matches (Call.IsAbout context location) (live.findOne context location) (pure []) := by
  intro calls fewer spared
  obtain ⟨later, isFound⟩ := passes.found calls
  obtain ⟨made, rfl, areAbout⟩ := isFound.isAbout
  rw [findOne_eq_ok.mpr isFound]
  exact ⟨rfl, spared.append_left areAbout⟩

variable (unmoved : live.Unmoved (Call.IsAbout context location)) {locations : List Location}
  {position : Nat} (isThere : locations[position]? = some location)

include unmoved isThere

/-- All locations lead to the same resources as those without the one that is passed over. -/
theorem PassesOver.matches_findAll :
    Matches (Call.IsAbout context location) (live.findAll context locations)
      (live.findAll context (locations.eraseIdx position)) := by
  induction locations generalizing position with
  | nil => cases isThere
  | cons first rest inductionHypothesis =>
    cases position with
    | zero =>
      obtain rfl := Option.some.inj isThere
      have goesOn (found : List Resource) (calls later : List Call)
          (isFound : live.findOne context first calls = (.ok found, later)) :
          Matches (Call.IsAbout context first)
            (live.findAll context rest >>= fun others => pure (found ++ others))
            (live.findAll context rest) := by
        obtain ⟨_, isNothing⟩ := passes.found calls
        rw [findOne_eq_ok.mpr isNothing] at isFound
        cases isFound
        exact (bind_pure (live.findAll context rest)).symm ▸ matches_findAll unmoved rest
      exact passes.matches_findOne.bind goesOn
    | succ position =>
      exact (LiveRepository.matches_findOne unmoved first).bind fun _ _ _ _ =>
        (inductionHypothesis isThere).bind fun _ _ _ _ => matches_pure _

theorem PassesOver.matches_gather (loaded : List String) :
    Matches (Call.IsAbout context location) (live.gather context locations loaded)
      (live.gather context (locations.eraseIdx position) loaded) :=
  (passes.matches_findAll unmoved isThere).bind fun _ _ _ _ => matches_readAll unmoved loaded _

end PassesOver

end LiveRepository

/-! ### Repositories that never change -/

namespace Repository

/-- The first finder that takes the location reports that it is missing and has no variants of it,
and this miss is ignored. -/
structure PassesOver (repository : Repository) (context : FindContext) (location : Location) :
    Prop where
  misses : ∃ finder, (repository.finders.find? fun finder => finder.takes context location) =
      some finder ∧
    (∃ cause, finder.find context location = .error cause ∧ cause.isMissing = true) ∧
    ∀ profiles, context.known = some profiles →
      finder.findVariants context location profiles = .ok []
  ignored : repository.policy = .ignore ∨ location.optional = true

section Live

variable {repository : Repository} {context : FindContext} {location : Location}

theorem PassesOver.live (passes : repository.PassesOver context location) :
    repository.live.PassesOver context location where
  misses calls := by
    obtain ⟨finder, isFirst, misses, noVariants⟩ := passes.misses
    have unjournaled (finder : Finder) :
        (Call.offered finder.name context location).isJournaled = false := rfl
    obtain ⟨taken, _⟩ := mirrors_firstTaking unjournaled
      (fun finder => finder.takes context location) repository.finders calls
    rw [isFirst] at taken
    exact ⟨fun _ => finder, _, Prod.ext taken rfl, misses, noVariants⟩
  ignored := passes.ignored

theorem unmoved_live (idle : Call → Prop) : repository.live.Unmoved idle where
  finder finder isFinder _ _ _ _ := by
    obtain ⟨_, _, rfl⟩ := List.mem_map.mp isFinder
    rfl
  reader reader isReader _ _ _ _ := by
    obtain ⟨_, _, rfl⟩ := List.mem_map.mp isReader
    rfl

end Live

end Repository

/-! ### Imports with and without the location -/

/-- A location that is missing, without variants and ignored may be left out of a list, wherever it
stands: the import comes to the same value or to the same error. Finders and readers that change
must not be moved by the calls about the location. -/
theorem same_without_ignored_miss {context : FindContext} {locations : List Location}
    {position : Nat} {location : Location} (loaded : List String)
    (isThere : locations[position]? = some location) :
    (∀ repository : Repository, repository.PassesOver context location →
      (repository.gather context locations loaded).outcome =
        (repository.gather context (locations.eraseIdx position) loaded).outcome) ∧
    ∀ live : LiveRepository, live.PassesOver context location →
      live.Unmoved (Call.IsAbout context location) → ∀ calls,
        (live.gather context locations loaded calls).1 =
          (live.gather context (locations.eraseIdx position) loaded calls).1 := by
  have same (live : LiveRepository) (passes : live.PassesOver context location)
      (unmoved : live.Unmoved (Call.IsAbout context location)) (calls : List Call) :=
    (passes.matches_gather unmoved isThere loaded calls calls (Call.spared_refl calls)).1
  refine ⟨fun repository passes => ?_, same⟩
  rw [← (Repository.mirrors_gather locations loaded []).1,
    ← (Repository.mirrors_gather (locations.eraseIdx position) loaded []).1]
  exact same repository.live passes.live (Repository.unmoved_live _) []

namespace LiveRepository

/-- Whether a resource is read by the call. -/
def readsResource : Call → Bool
  | .requested (.read _ _) => true
  | _ => false

/-- A table of which only one bundle can be read. -/
def singleReading : LiveRepository where
  finders := [fun _ => Repository.tableFinder Repository.cyclicTable]
  readers := [fun calls =>
    Repository.tableReader (if calls.any readsResource then [] else Repository.cyclicTable)]
  policy := .fail
  stepLimit := Repository.usualStepLimit

/-- A search for a location does not empty the table. -/
theorem unmoved_singleReading (context : FindContext) (location : Location) :
    singleReading.Unmoved (Call.IsAbout context location) where
  finder finder isFinder _ _ _ _ := by
    rw [List.mem_singleton.mp isFinder]
  reader reader isReader earlier call later isAbout := by
    have unread : readsResource call = false := by
      cases call with
      | offered | shown | received => rfl
      | requested request =>
        cases request with
        | find => rfl
        | findVariants => rfl
        | read => exact isAbout.elim
    rw [List.mem_singleton.mp isReader]
    simp only [List.any_append, List.any_cons, unread, Bool.false_or]

/-- An optional location that a table lacks stands between two others: of a table that never
changes both are read, and of one that allows a single reading the second is missing. Either way
the import comes to the same without the optional location. -/
theorem same_without_ignored_miss_cyclicTable :
    let context : FindContext := ⟨none, some ⟨["prod"], []⟩⟩
    let locations : List Location := [⟨"a", false⟩, ⟨"gone", true⟩, ⟨"b", false⟩]
    (Repository.ofTable Repository.cyclicTable).PassesOver context ⟨"gone", true⟩ ∧
    (((Repository.ofTable Repository.cyclicTable).gather context locations []).outcome.toOption.map
        fun gathered => gathered.map (·.1.id)) = some ["a", "b"] ∧
    ((Repository.ofTable Repository.cyclicTable).gather context locations []).outcome =
      ((Repository.ofTable Repository.cyclicTable).gather context
        [⟨"a", false⟩, ⟨"b", false⟩] []).outcome ∧
    singleReading.PassesOver context ⟨"gone", true⟩ ∧
    (singleReading.gather context locations [] []).1 = .error (.missing "b" none) ∧
    (singleReading.gather context locations [] []).1 =
      (singleReading.gather context [⟨"a", false⟩, ⟨"b", false⟩] [] []).1 := by
  intro context locations
  have passes : (Repository.ofTable Repository.cyclicTable).PassesOver context ⟨"gone", true⟩ :=
    ⟨⟨_, rfl, ⟨_, rfl, rfl⟩, fun _ isKnown => Option.some.inj isKnown ▸ rfl⟩, Or.inr rfl⟩
  have passesLive : singleReading.PassesOver context ⟨"gone", true⟩ :=
    ⟨fun _ => ⟨_, _, rfl, ⟨_, rfl, rfl⟩, fun _ isKnown => Option.some.inj isKnown ▸ rfl⟩,
      Or.inr rfl⟩
  have isThere : locations[1]? = some ⟨"gone", true⟩ := rfl
  refine ⟨passes, by decide +kernel, ?_, passesLive, by decide +kernel, ?_⟩
  · exact (same_without_ignored_miss [] isThere).1 _ passes
  · exact (same_without_ignored_miss [] isThere).2 _ passesLive (unmoved_singleReading _ _) []

end LiveRepository

end LayeredConfig
