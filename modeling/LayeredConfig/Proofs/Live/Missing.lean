/-
This file says with which misses an import fails.

Three inquiries may be answered with a miss: to find what counts for all profiles, to find variants,
and to read a resource. The policy is asked about the first and the last, so a miss of theirs ends
the import only if misses are failures and the location is required. It is not asked about variants:
a miss of theirs ends the import under either policy, and for optional locations too. Files never
miss variants, so an import of files keeps to its policy.
-/

import LayeredConfig.Import.FileReader
import LayeredConfig.Proofs.Import.Searching
import LayeredConfig.Proofs.Live.Repository

namespace LayeredConfig

/-- A policy fails with the cause that it is given, and only for a location that is required while
misses are failures. -/
theorem MissingPolicy.error_of_handle {policy : MissingPolicy} {location : Location}
    {cause failure : Error} (failed : (policy.handle location cause).outcome = .error failure) :
    failure = cause ∧ policy = .fail ∧ location.optional = false := by
  unfold handle at failed
  split at failed
  · next isFailure =>
    rw [Bool.and_eq_true, decide_eq_true_eq, Bool.not_eq_true'] at isFailure
    exact ⟨(Except.error.inj failed).symm, isFailure⟩
  · cases failed

/-- What is done about an answer that is an error fails with that error. It goes past the policy
only if the error is no miss. -/
theorem MissingPolicy.error_of_answer {Value : Type} {policy : MissingPolicy}
    {location : Location} {answer failure : Error} {fallback : Value}
    (failed : (if answer.isMissing then policy.handle location answer >>= fun _ => pure fallback
      else Run.fail answer : Run Value).outcome = .error failure) :
    answer = failure ∧
      (failure.isMissing = true → policy = .fail ∧ location.optional = false) := by
  split at failed
  · rcases Run.outcome_bind_eq_error.mp failed with handled | ⟨_, _, failed⟩
    · obtain ⟨same, requires⟩ := error_of_handle handled
      exact ⟨same.symm, fun _ => requires⟩
    · cases failed
  · next isOther =>
    refine ⟨Except.error.inj failed, fun isMissing => ?_⟩
    exact absurd (Except.error.inj failed ▸ isMissing) isOther

/-! ### Single inquiries -/

namespace Repository

variable {repository : Repository} {context : FindContext} {location : Location} {cause : Error}

/-- Whatever ends a search for what counts for all profiles is the finder's answer, and the policy
does not ignore it. -/
theorem error_of_findBase {finder : Finder}
    (failed : (repository.findBase finder context location).outcome = .error cause) :
    finder.find context location = .error cause ∧
      (cause.isMissing = true → repository.policy = .fail ∧ location.optional = false) := by
  unfold findBase at failed
  rcases Run.outcome_bind_eq_error.mp failed with recorded | ⟨_, _, failed⟩
  · cases recorded
  · split at failed
    · cases failed
    · next answer answered =>
      obtain ⟨same, requires⟩ := MissingPolicy.error_of_answer failed
      exact ⟨same ▸ answered, requires⟩

/-- Whatever ends a search for variants is the finder's answer. -/
theorem error_of_findSpecific {finder : Finder}
    (failed : (findSpecific finder context location).outcome = .error cause) :
    ∃ profiles, context.known = some profiles ∧
      finder.findVariants context location profiles = .error cause := by
  unfold findSpecific at failed
  split at failed
  · cases failed
  · next profiles known =>
    rcases Run.outcome_bind_eq_error.mp failed with recorded | ⟨_, _, failed⟩
    · cases recorded
    · exact ⟨profiles, known, failed⟩

/-- Whatever ends a reading is the reader's answer, and the policy does not ignore it. -/
theorem error_of_readWith {reader : Reader} {resource : Resource}
    (failed : (repository.readWith reader resource).outcome = .error cause) :
    reader.read resource = .error cause ∧
      (cause.isMissing = true →
        repository.policy = .fail ∧ resource.location.optional = false) := by
  unfold readWith at failed
  rcases Run.outcome_bind_eq_error.mp failed with recorded | ⟨_, _, failed⟩
  · cases recorded
  · split at failed
    · cases failed
    · next answer answered =>
      obtain ⟨same, requires⟩ := MissingPolicy.error_of_answer failed
      exact ⟨same ▸ answered, requires⟩

end Repository

/-! ### Inquiries of an import -/

/-- What a finder or a reader is asked in an import. -/
inductive Inquiry where
  | find
  | findVariants
  | read
  deriving DecidableEq, Repr

namespace LiveRepository

/-- Some finder answered the resource, at some time, for one of the locations. -/
inductive Finds (live : LiveRepository) (context : FindContext) (locations : List Location)
    (resource : Resource) : Prop
  | base {location : Location} {finder : List Call → Finder} {calls : List Call}
    {found : List Resource} (declared : location ∈ locations) (isFinder : finder ∈ live.finders)
    (answered : (finder calls).find context location = .ok found) (member : resource ∈ found)
  | variants {location : Location} {finder : List Call → Finder} {calls : List Call}
    {profiles : Profiles} {found : List Resource} (declared : location ∈ locations)
    (isFinder : finder ∈ live.finders) (known : context.known = some profiles)
    (answered : (finder calls).findVariants context location profiles = .ok found)
    (member : resource ∈ found)

/-- Some finder or reader answered the failure, at some time, to an inquiry that an import of the
locations makes for one of them. -/
inductive Reports (live : LiveRepository) (context : FindContext) (locations : List Location)
    (cause : Error) : Inquiry → Location → Prop
  | find {location : Location} {finder : List Call → Finder} {calls : List Call}
    (declared : location ∈ locations) (isFinder : finder ∈ live.finders)
    (answered : (finder calls).find context location = .error cause) :
    Reports live context locations cause .find location
  | findVariants {location : Location} {finder : List Call → Finder} {calls : List Call}
    {profiles : Profiles} (declared : location ∈ locations) (isFinder : finder ∈ live.finders)
    (known : context.known = some profiles)
    (answered : (finder calls).findVariants context location profiles = .error cause) :
    Reports live context locations cause .findVariants location
  | read {resource : Resource} {reader : List Call → Reader} {calls : List Call}
    (found : live.Finds context locations resource) (isReader : reader ∈ live.readers)
    (answered : (reader calls).read resource = .error cause) :
    Reports live context locations cause .read resource.location

/-- Why an import of the locations fails: nothing takes what is to be found or read, or a finder or
a reader reported the failure, and the policy does not ignore it. -/
inductive CausedBy (live : LiveRepository) (context : FindContext) (locations : List Location)
    (cause : Error) : Prop
  | untaken {location reason : String} (isUntaken : cause = .unsupported location reason)
  | reported {inquiry : Inquiry} {location : Location}
    (reports : live.Reports context locations cause inquiry location)
    (requires : cause.isMissing = true →
      inquiry = .findVariants ∨ live.policy = .fail ∧ location.optional = false)

section Missing

variable {live : LiveRepository} {context : FindContext} {location : Location}
  {locations more : List Location} {cause : Error} {calls later : List Call}

theorem Finds.mono {resource : Resource} (finds : live.Finds context locations resource)
    (within : ∀ declared ∈ locations, declared ∈ more) : live.Finds context more resource := by
  cases finds with
  | base declared isFinder answered member =>
    exact .base (within _ declared) isFinder answered member
  | variants declared isFinder known answered member =>
    exact .variants (within _ declared) isFinder known answered member

theorem Reports.mono {inquiry : Inquiry}
    (reports : live.Reports context locations cause inquiry location)
    (within : ∀ declared ∈ locations, declared ∈ more) :
    live.Reports context more cause inquiry location := by
  cases reports with
  | find declared isFinder answered => exact .find (within _ declared) isFinder answered
  | findVariants declared isFinder known answered =>
    exact .findVariants (within _ declared) isFinder known answered
  | read found isReader answered => exact .read (found.mono within) isReader answered

theorem CausedBy.mono (causedBy : live.CausedBy context locations cause)
    (within : ∀ declared ∈ locations, declared ∈ more) : live.CausedBy context more cause := by
  cases causedBy with
  | untaken isUntaken => exact .untaken isUntaken
  | reported reports requires => exact .reported (reports.mono within) requires

/-! ### Finding -/

/-- To look for one that takes what is to be taken does not fail. -/
theorem firstTaking_ne_error {Kind : Type} {asking : Kind → Call} {takes : Kind → Bool}
    (partners : List (List Call → Kind)) :
    firstTaking asking takes partners calls ≠ (.error cause, later) := by
  intro failed
  induction partners generalizing calls with
  | nil => cases failed
  | cons changing rest inductionHypothesis =>
    rcases Dialogue.bind_eq_error.mp (Dialogue.of_soFar_bind failed) with failed | ⟨_, _, _, failed⟩
    · cases failed
    · split at failed
      · cases failed
      · exact inductionHypothesis failed

theorem finds_of_findOne {found : List Resource}
    (succeeded : live.findOne context location calls = (.ok found, later)) :
    ∀ resource ∈ found, live.Finds context [location] resource := by
  have declared : location ∈ [location] := List.mem_cons_self
  obtain ⟨finder?, _, taken, succeeded⟩ := Dialogue.bind_eq_ok.mp succeeded
  cases finder? with
  | none => cases succeeded
  | some finder =>
    have isFinder := mem_of_firstTaking taken
    obtain ⟨_, _, _, succeeded⟩ := Dialogue.bind_eq_ok.mp succeeded
    obtain ⟨base, _, isBase, succeeded⟩ := Dialogue.bind_eq_ok.mp succeeded
    obtain ⟨_, _, _, succeeded⟩ := Dialogue.bind_eq_ok.mp succeeded
    obtain ⟨variants, _, areVariants, succeeded⟩ := Dialogue.bind_eq_ok.mp succeeded
    cases succeeded
    intro resource member
    rcases List.mem_append.mp member with inBase | inVariants
    · rw [Repository.findBase_eq (congrArg Prod.fst isBase)] at inBase
      cases answered : (finder _).find context location with
      | ok answer =>
        rw [answered] at inBase
        exact .base declared isFinder answered inBase
      | error =>
        rw [answered] at inBase
        cases inBase
    · rw [Repository.findSpecific_eq (congrArg Prod.fst areVariants)] at inVariants
      split at inVariants
      · cases inVariants
      · next profiles known =>
        cases answered : (finder _).findVariants context location profiles with
        | ok answer =>
          rw [answered] at inVariants
          exact .variants declared isFinder known answered inVariants
        | error =>
          rw [answered] at inVariants
          cases inVariants

theorem finds_of_findAll {found : List Resource}
    (succeeded : live.findAll context locations calls = (.ok found, later)) :
    ∀ resource ∈ found, live.Finds context locations resource := by
  induction locations generalizing calls found with
  | nil =>
    cases succeeded
    exact nofun
  | cons first rest inductionHypothesis =>
    obtain ⟨here, _, isHere, succeeded⟩ := Dialogue.bind_eq_ok.mp succeeded
    obtain ⟨others, _, areOthers, succeeded⟩ := Dialogue.bind_eq_ok.mp succeeded
    cases succeeded
    intro resource member
    rcases List.mem_append.mp member with inHere | inOthers
    · refine (finds_of_findOne isHere resource inHere).mono fun declared isFirst => ?_
      exact List.mem_singleton.mp isFirst ▸ List.mem_cons_self
    · exact (inductionHypothesis areOthers resource inOthers).mono fun _ => List.mem_cons_of_mem _

theorem cause_of_findOne
    (failed : live.findOne context location calls = (.error cause, later)) :
    live.CausedBy context [location] cause := by
  have declared : location ∈ [location] := List.mem_cons_self
  rcases Dialogue.bind_eq_error.mp failed with unasked | ⟨finder?, _, taken, failed⟩
  · exact absurd unasked (firstTaking_ne_error _)
  · cases finder? with
    | none => exact .untaken (Except.error.inj (congrArg Prod.fst failed)).symm
    | some finder =>
      have isFinder := mem_of_firstTaking taken
      rcases Dialogue.bind_eq_error.mp (Dialogue.of_soFar_bind failed) with
        failed | ⟨_, _, _, failed⟩
      · obtain ⟨answered, requires⟩ := Repository.error_of_findBase (congrArg Prod.fst failed)
        exact .reported (.find declared isFinder answered) fun isMissing =>
          Or.inr (requires isMissing)
      · rcases Dialogue.bind_eq_error.mp (Dialogue.of_soFar_bind failed) with
          failed | ⟨_, _, _, failed⟩
        · obtain ⟨profiles, known, answered⟩ :=
            Repository.error_of_findSpecific (congrArg Prod.fst failed)
          exact .reported (.findVariants declared isFinder known answered) fun _ => Or.inl rfl
        · cases failed

theorem cause_of_findAll
    (failed : live.findAll context locations calls = (.error cause, later)) :
    live.CausedBy context locations cause := by
  induction locations generalizing calls with
  | nil => cases failed
  | cons first rest inductionHypothesis =>
    rcases Dialogue.bind_eq_error.mp failed with failed | ⟨_, _, _, failed⟩
    · refine (cause_of_findOne failed).mono fun declared isFirst => ?_
      exact List.mem_singleton.mp isFirst ▸ List.mem_cons_self
    · rcases Dialogue.bind_eq_error.mp failed with failed | ⟨_, _, _, failed⟩
      · exact (inductionHypothesis failed).mono fun _ => List.mem_cons_of_mem _
      · cases failed

/-! ### Reading -/

theorem cause_of_readOne {resource : Resource}
    (found : live.Finds context locations resource)
    (failed : live.readOne resource calls = (.error cause, later)) :
    live.CausedBy context locations cause := by
  rcases Dialogue.bind_eq_error.mp failed with unasked | ⟨reader?, _, taken, failed⟩
  · exact absurd unasked (firstTaking_ne_error _)
  · cases reader? with
    | none => exact .untaken (Except.error.inj (congrArg Prod.fst failed)).symm
    | some reader =>
      obtain ⟨answered, requires⟩ := Repository.error_of_readWith
        (congrArg Prod.fst (Dialogue.of_soFar_bind failed))
      exact .reported (.read found (mem_of_firstTaking taken) answered) fun isMissing =>
        Or.inr (requires isMissing)

/-- Reading a list of resources fails because reading one of them does. -/
theorem error_of_readAll {seen : List String} {resources : List Resource}
    (failed : live.readAll seen resources calls = (.error cause, later)) :
    ∃ resource ∈ resources, ∃ before, live.readOne resource before = (.error cause, later) := by
  induction resources generalizing seen calls with
  | nil => cases failed
  | cons resource rest inductionHypothesis =>
    have ofRest {seen : List String} {calls : List Call}
        (failed : live.readAll seen rest calls = (.error cause, later)) :
        ∃ other ∈ resource :: rest, ∃ before,
          live.readOne other before = (.error cause, later) := by
      obtain ⟨other, inRest, before, failedOne⟩ := inductionHypothesis failed
      exact ⟨other, List.mem_cons_of_mem _ inRest, before, failedOne⟩
    rw [readAll] at failed
    split at failed
    · exact ofRest failed
    · rcases Dialogue.bind_eq_error.mp failed with failed | ⟨_, _, _, failed⟩
      · exact ⟨resource, List.mem_cons_self, calls, failed⟩
      · rcases Dialogue.bind_eq_error.mp failed with failed | ⟨_, _, _, failed⟩
        · exact ofRest failed
        · cases failed

/-! ### Importing -/

/-- Whatever ends an import was reported by a finder or a reader, or there was none that takes what
is to be found or read. -/
theorem cause_of_gather {loaded : List String}
    (failed : live.gather context locations loaded calls = (.error cause, later)) :
    live.CausedBy context locations cause := by
  rcases Dialogue.bind_eq_error.mp failed with failed | ⟨resources, _, areFound, failed⟩
  · exact cause_of_findAll failed
  · obtain ⟨resource, isFound, _, failedOne⟩ := error_of_readAll failed
    exact cause_of_readOne (finds_of_findAll areFound resource isFound) failedOne

/-- A miss that ends an import was reported by a finder or a reader, and the policy does not ignore
it unless it was reported in a search for variants. -/
theorem reports_of_gather {loaded : List String}
    (failed : live.gather context locations loaded calls = (.error cause, later))
    (isMissing : cause.isMissing = true) :
    ∃ inquiry location, live.Reports context locations cause inquiry location ∧
      (inquiry = .findVariants ∨ live.policy = .fail ∧ location.optional = false) := by
  cases cause_of_gather failed with
  | untaken isUntaken =>
    rw [isUntaken] at isMissing
    cases isMissing
  | reported reports requires => exact ⟨_, _, reports, requires isMissing⟩

end Missing

/-- If an import ends with a miss, a finder or a reader reported it, whatever they answer; and
unless it was reported in a search for variants, misses are failures and the location is required.
-/
theorem missing_only_past_variants {live : LiveRepository} {context : FindContext}
    {locations : List Location} {loaded : List String} {calls : List Call} {cause : Error}
    (failed : (live.gather context locations loaded calls).1 = .error cause)
    (isMissing : cause.isMissing = true) :
    ∃ inquiry location, live.Reports context locations cause inquiry location ∧
      (inquiry = .findVariants ∨ live.policy = .fail ∧ location.optional = false) :=
  reports_of_gather (Prod.ext failed rfl) isMissing

end LiveRepository

namespace Repository

/-! ### A miss that no policy ignores -/

/-- A repository without resources, whose finder reports so for all profiles and for each. -/
def withoutResources (policy : MissingPolicy) : Repository where
  finders := [
    { name := "empty"
      takes := fun _ _ => true
      find := fun _ location => .error (.missing location.text none)
      findVariants := fun _ location _ => .error (.missing location.text none) }]
  readers := []
  policy := policy
  stepLimit := usualStepLimit

/-- An import of a required location, with misses ignored, ends with the miss of its variants. -/
theorem missing_only_past_variants_withoutResources :
    ∃ cause, ((withoutResources .ignore).live.gather ⟨none, some ⟨["prod"], []⟩⟩
        [⟨"a", false⟩] [] []).1 = .error cause ∧ cause.isMissing = true ∧
      ∃ inquiry location, (withoutResources .ignore).live.Reports ⟨none, some ⟨["prod"], []⟩⟩
        [⟨"a", false⟩] cause inquiry location ∧
        (inquiry = .findVariants ∨
          (withoutResources .ignore).live.policy = .fail ∧ location.optional = false) := by
  have failed : ((withoutResources .ignore).live.gather ⟨none, some ⟨["prod"], []⟩⟩
      [⟨"a", false⟩] [] []).1 = .error (.missing "a" none) := by rfl
  exact ⟨_, failed, rfl, LiveRepository.missing_only_past_variants failed rfl⟩

/-- Neither is a miss always ignored if the policy is to ignore misses, nor if all locations are
optional. -/
theorem miss_of_variants_not_ignored :
    (¬ ∀ (repository : Repository) (context : FindContext) (locations : List Location)
        (loaded : List String) (cause : Error), repository.policy = .ignore →
      (repository.gather context locations loaded).outcome = .error cause →
      cause.isMissing = false) ∧
    ¬ ∀ (repository : Repository) (context : FindContext) (locations : List Location)
        (loaded : List String) (cause : Error), repository.policy = .fail →
      (∀ location ∈ locations, location.optional = true) →
      (repository.gather context locations loaded).outcome = .error cause →
      cause.isMissing = false := by
  constructor
  · intro ignores
    have := ignores (withoutResources .ignore) ⟨none, some ⟨["prod"], []⟩⟩ [⟨"a", false⟩] []
      (.missing "a" none) rfl rfl
    cases this
  · intro ignores
    have := ignores (withoutResources .fail) ⟨none, some ⟨["prod"], []⟩⟩ [⟨"a", true⟩] []
      (.missing "optional:a" none) rfl (by decide) (by rfl)
    cases this

end Repository

/-! ### Files -/

/-- A path that cannot be made absolute is a bad path and no missing location. -/
theorem Path.not_missing_of_absolutize {path base : String} {cause : Error}
    (failed : absolutize path base = .error cause) : cause.isMissing = false := by
  unfold absolutize resolveDots at failed
  split at failed
  · cases failed
  · rw [← Except.error.inj failed]
    rfl

theorem Path.not_missing_of_expandTilde {home path : String} {cause : Error}
    (failed : expandTilde home path = .error cause) : cause.isMissing = false := by
  unfold expandTilde at failed
  split at failed
  case h_4 =>
    rw [← Except.error.inj failed]
    rfl
  all_goals cases failed

namespace FileFinder

variable {finder : FileFinder} {cause : Error}

theorem not_missing_of_underRoots {path : String} {roots : List String}
    (failed : finder.underRoots path roots = .error cause) : cause.isMissing = false := by
  induction roots with
  | nil => cases failed
  | cons root rest inductionHypothesis =>
    rcases bind_eq_error.mp failed with failed | ⟨_, _, failed⟩
    · exact Path.not_missing_of_absolutize failed
    · rcases bind_eq_error.mp failed with failed | ⟨_, _, failed⟩
      · exact inductionHypothesis failed
      · cases failed

/-- A search for variants of files that do not exist finds none, and this is no miss. -/
theorem not_missing_of_findVariants {context : FindContext} {location : Location}
    {profiles : Profiles} (failed : finder.findVariants context location profiles = .error cause) :
    cause.isMissing = false := by
  rcases bind_eq_error.mp failed with failed | ⟨_, _, failed⟩
  · unfold candidates at failed
    split at failed
    · exact not_missing_of_underRoots failed
    · rcases bind_eq_error.mp failed with failed | ⟨_, _, failed⟩
      · exact Path.not_missing_of_expandTilde failed
      · rcases bind_eq_error.mp failed with failed | ⟨_, _, failed⟩
        · exact Path.not_missing_of_absolutize failed
        · cases failed
  · cases failed

end FileFinder

/-- If an import of files ends with a miss, then misses are failures, and what is missing was asked
for by a location that is required. -/
theorem Repository.required_of_gather_ofFiles {world : World} {baseDirectory : String}
    {roots : List String} {policy : MissingPolicy} {context : FindContext}
    {locations : List Location} {loaded : List String} {cause : Error}
    (failed : ((ofFiles world baseDirectory roots policy).gather context locations loaded).outcome =
      .error cause) (isMissing : cause.isMissing = true) :
    policy = .fail ∧ ∃ inquiry location,
      (ofFiles world baseDirectory roots policy).live.Reports context locations cause inquiry
        location ∧ location.optional = false := by
  have mirrored := (mirrors_gather locations loaded []).1.trans failed
  obtain ⟨inquiry, location, reports, rfl | ⟨isFailure, required⟩⟩ :=
    LiveRepository.reports_of_gather (Prod.ext mirrored rfl) isMissing
  · cases reports with
    | findVariants declared isFinder known answered =>
      obtain ⟨finder, isFinder, rfl⟩ := List.mem_map.mp isFinder
      rw [List.mem_singleton.mp isFinder] at answered
      rw [FileFinder.not_missing_of_findVariants answered] at isMissing
      cases isMissing
  · exact ⟨isFailure, inquiry, location, reports, required⟩

end LayeredConfig
