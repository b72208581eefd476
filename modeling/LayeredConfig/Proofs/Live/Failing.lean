/-
This file says with which errors a resolution fails.

Errors leave a resolution from five places: layers are bound, imports are read, profiles are
computed, the final tree is checked, and there may be no steps left. Only where imports are read is
an error told with the layer that asked for them, and not if it is a miss. So an error has at most
one layer around it, provided that finders and readers do not put one there themselves, and a miss
has none. Whether an error is a miss is thus seen at its outside, and so is the exit code of a miss.
-/

import LayeredConfig.CommandLine.Failure
import LayeredConfig.Proofs.Import.Table
import LayeredConfig.Proofs.Live.Expansion
import LayeredConfig.Proofs.Live.Missing
import LayeredConfig.Proofs.Lookup.Failure

namespace LayeredConfig

/-! ### Errors and their codes -/

namespace Error

/-- Whether the error is told with the layer whose imports were read. -/
def isImported : Error → Bool
  | imported .. => true
  | _ => false

theorem eq_missing {cause : Error} (isMissing : cause.isMissing = true)
    (isDirect : cause.isImported = false) :
    ∃ location reason, cause = .missing location reason := by
  cases cause with
  | missing location reason => exact ⟨location, reason, rfl⟩
  | imported => cases isDirect
  | _ => cases isMissing

/-- An error of another kind than a miss is told with the layer, once. -/
theorem inLayer_of_direct {cause : Error} (layer : String) (isDirect : cause.isImported = false)
    (isOther : cause.isMissing = false) : cause.inLayer layer = .imported layer cause := by
  cases cause with
  | missing => cases isOther
  | imported => cases isDirect
  | _ => rfl

end Error

/-- The exit code of a failed resolution is the one of a missing location exactly if a location is
missing. -/
theorem Failure.codeOf_eq_two {cause : Error} : codeOf cause = 2 ↔ cause.isMissing = true := by
  induction cause with
  | imported layer cause inductionHypothesis => exact inductionHypothesis
  | missing => exact iff_of_true rfl rfl
  | _ => exact iff_of_false nofun nofun

/-- The check at the end fails only with a profile property in the wrong place. -/
theorem LayerTree.misplaced_of_checkSelecting {layers : List Layer} {cause : Error}
    (failed : checkSelecting layers = .error cause) :
    ∃ property layer, cause = .misplaced property layer := by
  induction layers with
  | nil => cases failed
  | cons layer rest inductionHypothesis =>
    rw [checkSelecting] at failed
    split at failed
    · split at failed
      · exact ⟨_, _, (Except.error.inj failed).symm⟩
      · exact inductionHypothesis failed
    · exact inductionHypothesis failed

namespace LiveRepository

/-! ### Finders and readers that name no layers -/

/-- At no time does a finder or a reader answer an error that is told with a layer. -/
structure Direct (live : LiveRepository) : Prop where
  find : ∀ finder ∈ live.finders, ∀ calls context location cause,
    (finder calls).find context location = .error cause → cause.isImported = false
  findVariants : ∀ finder ∈ live.finders, ∀ calls context location profiles cause,
    (finder calls).findVariants context location profiles = .error cause →
      cause.isImported = false
  read : ∀ reader ∈ live.readers, ∀ calls resource cause,
    (reader calls).read resource = .error cause → cause.isImported = false

section Direct

variable {live : LiveRepository} {context : FindContext} {locations : List Location} {cause : Error}

theorem Direct.reports (direct : live.Direct) {inquiry : Inquiry} {location : Location}
    (reports : live.Reports context locations cause inquiry location) :
    cause.isImported = false := by
  cases reports with
  | find _ isFinder answered => exact direct.find _ isFinder _ _ _ _ answered
  | findVariants _ isFinder _ answered => exact direct.findVariants _ isFinder _ _ _ _ _ answered
  | read _ isReader answered => exact direct.read _ isReader _ _ _ answered

/-- Neither does an import end with such an error. -/
theorem Direct.causedBy (direct : live.Direct) (causedBy : live.CausedBy context locations cause) :
    cause.isImported = false := by
  cases causedBy with
  | untaken isUntaken =>
    rw [isUntaken]
    rfl
  | reported reports => exact direct.reports reports

end Direct

/-! ### Where a resolution fails -/

section Fails

variable (live : LiveRepository) (initial : List Source) (request : ProfileRequest)

/-- The resolution comes to a layer whose imports are to be read, and reading them fails. -/
def FailsImporting (layer : Layer) (cause : Error) : Prop :=
  ∃ known tree expansions, live.Comes initial request known tree expansions ∧
    tree.next? known = some layer ∧ layer.role.isFound = false ∧
    (live.gatherFor known tree layer (Expansion.callsOf expansions)).1 = .error cause

/-- To bind the given sources fails, or the resolution comes to a layer that is to be bound, and
binding it fails. -/
def FailsBinding (cause : Error) : Prop :=
  LayerTree.ofBoundSources initial = .error cause ∨
    ∃ known tree layer expansions, live.Comes initial request known tree expansions ∧
      tree.next? known = some layer ∧ layer.role.isFound = true ∧
      tree.bindLayer known layer = .error cause

/-- The errors with which a resolution fails, by the place where it does. -/
inductive Failing : Error → Prop
  | missing {layer : Layer} {location : String} {reason : Option String}
    (fails : live.FailsImporting initial request layer (.missing location reason)) :
    Failing (.missing location reason)
  | imported {layer : Layer} {cause : Error}
    (fails : live.FailsImporting initial request layer cause)
    (isDirect : cause.isImported = false) (isOther : cause.isMissing = false) :
    Failing (.imported layer.name cause)
  | binding {cause : Error} (fails : live.FailsBinding initial request cause)
    (isOfBinding : cause.isOfBinding = true) : Failing cause
  | profiles {tree : LayerTree} {expansions : List Expansion} {cause : Error}
    (comes : live.Comes initial request none tree expansions)
    (fails : (Lookup.overTree tree none .strict).computeProfiles request = .error cause)
    (isOfLookup : cause.isOfLookup = true) : Failing cause
  | misplaced {profiles : Profiles} {tree : LayerTree} {expansions : List Expansion}
    {property layer : String}
    (comes : live.Comes initial request (some profiles) tree expansions)
    (fails : LayerTree.checkSelecting tree.layers = .error (.misplaced property layer)) :
    Failing (.misplaced property layer)

end Fails

section Failing

variable {live : LiveRepository} {initial : List Source} {request : ProfileRequest}
  {known : Option Profiles} {tree : LayerTree} {layer : Layer} {cause : Error}
  {expansions : List Expansion}

/-- Work on a layer fails where it binds the layer or where it reads the imports. -/
theorem failing_of_work (direct : live.Direct)
    (comes : live.Comes initial request known tree expansions)
    (selected : tree.next? known = some layer)
    (failed : (live.work known tree layer (Expansion.callsOf expansions)).1 = .error cause) :
    live.Failing initial request cause := by
  cases isFound : layer.role.isFound with
  | true =>
    rw [work_of_found isFound] at failed
    exact .binding (.inr ⟨known, tree, layer, expansions, comes, selected, isFound, failed⟩)
      (tree.failsAs_bindLayer known layer cause failed)
  | false =>
    rw [work_of_ready isFound] at failed
    cases ended : (live.gatherFor known tree layer (Expansion.callsOf expansions)).1 with
    | ok gathered =>
      rw [ended] at failed
      cases failed
    | error answer =>
      rw [ended] at failed
      obtain rfl : answer.inLayer layer.name = cause := Except.error.inj failed
      have fails : live.FailsImporting initial request layer answer :=
        ⟨known, tree, expansions, comes, selected, isFound, ended⟩
      have isDirect : answer.isImported = false :=
        direct.causedBy (cause_of_gather (Prod.ext ended rfl))
      cases isMissing : answer.isMissing with
      | true =>
        obtain ⟨location, reason, rfl⟩ := Error.eq_missing isMissing isDirect
        exact .missing fails
      | false =>
        rw [Error.inLayer_of_direct layer.name isDirect isMissing]
        exact .imported fails isDirect isMissing

/-- A resolution that fails and is not given up fails in one of the places. -/
theorem failing_of_breaks (direct : live.Direct)
    (breaks : live.Breaks initial request cause expansions) :
    live.Failing initial request cause ∨ ∃ steps, cause = .unfinished steps := by
  cases breaks with
  | start failed =>
    exact .inl (.binding (.inl failed) (LayerTree.failsAs_ofBoundSources initial cause failed))
  | step comes selected failed =>
    exact .inl (failing_of_work direct comes selected (congrArg Prod.fst failed))
  | limit => exact .inr ⟨_, rfl⟩
  | learn comes failed =>
    have fails := (Lookup.failsAs_computeProfiles _ request) cause failed
    exact .inl (.profiles comes failed (Lookup.isOfLookup_of_mayFail fails))
  | check comes failed =>
    obtain ⟨property, layer, rfl⟩ := LayerTree.misplaced_of_checkSelecting failed
    exact .inl (.misplaced comes failed)

/-- No error has more than one layer around it, and no miss has any. -/
theorem Failing.wrapped_once (failing : live.Failing initial request cause) {layer : String}
    {inner : Error} (isImported : cause = .imported layer inner) :
    inner.isImported = false ∧ inner.isMissing = false := by
  cases failing with
  | missing | misplaced => cases isImported
  | imported _ isDirect isOther =>
    cases isImported
    exact ⟨isDirect, isOther⟩
  | binding _ isOfBinding =>
    rw [isImported] at isOfBinding
    cases isOfBinding
  | profiles _ _ isOfLookup =>
    rw [isImported] at isOfLookup
    cases isOfLookup

end Failing

/-- If finders and readers name no layers, a resolution that fails and is not given up fails in one
of five ways: a miss as such, another failure of an import with the layer around it that asked, or
as such a failure to bind, to compute the profiles or to pass the final check. Then an error is a
miss exactly if it is one at its outside, and exactly then the exit code is the one of a miss. -/
theorem failing_of_resolve {live : LiveRepository} {initial : List Source}
    {request : ProfileRequest} {cause : Error} (direct : live.Direct)
    (failed : (live.resolve initial request []).1 = .error cause) :
    (live.Failing initial request cause ∨ ∃ steps, cause = .unfinished steps) ∧
      (∀ layer inner, cause = .imported layer inner →
        inner.isImported = false ∧ inner.isMissing = false) ∧
      (cause.isMissing = true ↔ ∃ location reason, cause = .missing location reason) ∧
      ((Failure.resolution cause).exitCode = 2 ↔ cause.isMissing = true) := by
  obtain ⟨expansions, breaks, _⟩ :=
    (leaves_resolve live initial request).of_eq_error (Prod.ext failed rfl)
  have fails := failing_of_breaks direct breaks
  have wrappedOnce : ∀ layer inner, cause = .imported layer inner →
      inner.isImported = false ∧ inner.isMissing = false := by
    intro layer inner isImported
    rcases fails with failing | ⟨steps, isUnfinished⟩
    · exact failing.wrapped_once isImported
    · rw [isUnfinished] at isImported
      cases isImported
  refine ⟨fails, wrappedOnce, ⟨fun isMissing => ?_, ?_⟩, Failure.codeOf_eq_two⟩
  · refine Error.eq_missing isMissing (Bool.eq_false_iff.mpr fun isImported => ?_)
    cases cause with
    | imported layer inner =>
      exact Bool.false_ne_true ((wrappedOnce layer inner rfl).2.symm.trans isMissing)
    | _ => cases isImported
  · rintro ⟨location, reason, rfl⟩
    rfl

end LiveRepository

/-! ### A reader that fails -/

namespace Repository

/-- A table with one bundle that its reader cannot read. -/
def withUnreadable (table : List (String × Bundle)) (name : String) : Repository :=
  { ofTable table with
    readers := [{ tableReader table with
      read := fun resource =>
        if resource.id = name then .error (.unreadable name "damaged")
        else (tableReader table).read resource }] }

theorem direct_withUnreadable (table : List (String × Bundle)) (name : String) :
    (withUnreadable table name).live.Direct where
  find := by
    intro finder isFinder calls context location cause answered
    obtain rfl := List.mem_singleton.mp isFinder
    change (tableFinder table).find context location = .error cause at answered
    unfold tableFinder at answered
    dsimp only at answered
    split at answered
    · cases answered
      rfl
    · cases answered
  findVariants := by
    intro finder isFinder calls context location profiles cause answered
    obtain rfl := List.mem_singleton.mp isFinder
    cases answered
  read := by
    intro reader isReader calls resource cause answered
    obtain rfl := List.mem_singleton.mp isReader
    change (if resource.id = name then .error (.unreadable name "damaged")
      else (tableReader table).read resource : Except Error Bundle) = .error cause at answered
    split at answered
    · cases answered
      rfl
    · unfold tableReader at answered
      dsimp only at answered
      split at answered
      · cases answered
      · cases answered
        rfl

/-- Two layers deep, the error has the inner layer around it alone. -/
theorem failing_of_resolve_withUnreadable :
    ((withUnreadable cyclicTable "b").live.resolve cyclicSources .unset []).1 =
        .error (.imported "a1" (.unreadable "b" "damaged")) ∧
      (withUnreadable cyclicTable "b").live.Direct ∧
      (withUnreadable cyclicTable "b").live.Failing cyclicSources .unset
        (.imported "a1" (.unreadable "b" "damaged")) ∧
      (Failure.resolution (.imported "a1" (.unreadable "b" "damaged"))).exitCode ≠ 2 := by
  have failed : ((withUnreadable cyclicTable "b").live.resolve cyclicSources .unset []).1 =
      .error (.imported "a1" (.unreadable "b" "damaged")) := by
    refine map_eq_error.mp (show Except.map (fun _ => ()) _ = _ from ?_)
    decide +kernel
  have direct := direct_withUnreadable cyclicTable "b"
  obtain ⟨failing, _, _, isMissing⟩ := LiveRepository.failing_of_resolve direct failed
  refine ⟨failed, direct, failing.resolve_right nofun, fun isTwo => ?_⟩
  cases isMissing.mp isTwo

end Repository

end LayeredConfig
