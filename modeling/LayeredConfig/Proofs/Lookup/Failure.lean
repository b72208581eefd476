/-
This file says with which causes asking for a property fails.

A value may have the wrong shape, its placeholders may lead back to it, and it may stand in a layer
that takes no part; the last is a failure only for a lookup in the whole tree that refuses such
values. To bind a layer and to compute the profiles is to ask for properties, so there is no other
cause for these to fail.
-/

import LayeredConfig.Layer.Expansion
import LayeredConfig.Profile.Selection
import LayeredConfig.Proofs.Run

namespace LayeredConfig

/-- Whether the cause is one with which asking for a property fails. -/
def Error.isOfLookup : Error → Bool
  | unbound .. => true
  | inactive .. => true
  | cycle _ => true
  | _ => false

/-- Whether the cause is one with which binding a layer fails. -/
def Error.isOfBinding : Error → Bool
  | unbound .. => true
  | cycle _ => true
  | _ => false

theorem Error.isOfLookup_of_isOfBinding {cause : Error} (isOfBinding : cause.isOfBinding = true) :
    cause.isOfLookup = true := by
  cases cause with
  | unbound | cycle => rfl
  | _ => cases isOfBinding

/-- Whether the cause is one with which this lookup fails. -/
def Lookup.mayFail (lookup : Lookup) : Error → Bool
  | .unbound .. => true
  | .inactive .. => lookup.focus.isNone && lookup.rule.rejectInactive
  | .cycle _ => true
  | _ => false

theorem Lookup.isOfLookup_of_mayFail {lookup : Lookup} {cause : Error}
    (mayFail : lookup.mayFail cause = true) : cause.isOfLookup = true := by
  cases cause with
  | unbound | inactive | cycle => rfl
  | _ => cases mayFail

/-- A lookup of the properties of one layer refuses none. -/
theorem Lookup.mayFail_ofLayer (tree : LayerTree) (layer : Layer) (known : Option Profiles) :
    (ofLayer tree layer known).mayFail = Error.isOfBinding := by
  funext cause
  cases cause <;> rfl

/-- The computation fails only with causes of a kind. -/
def FailsAs {Result : Type} (kind : Error → Bool) (outcome : Except Error Result) : Prop :=
  ∀ cause, outcome = .error cause → kind cause = true

/-- The computation fails only as asking for a property does. -/
def FailsInLookup {Result : Type} (outcome : Except Error Result) : Prop :=
  ∀ cause, outcome = .error cause → cause.isOfLookup = true

section Combinators

variable {First Second : Type} {kind : Error → Bool}

theorem failsAs_ok (value : First) : FailsAs kind (.ok value) := by
  intro cause failed
  cases failed

theorem failsAs_error {cause : Error} (isKind : kind cause = true) :
    FailsAs kind (.error cause : Except Error First) := by
  intro other failed
  cases failed
  exact isKind

/-- What fails because a part of it does fails as the part. -/
theorem FailsAs.raise {outcome : Except Error First} {cause : Error}
    (failed : outcome = .error cause) (fails : FailsAs kind outcome) :
    FailsAs kind (.error cause : Except Error Second) :=
  failsAs_error (fails cause failed)

theorem FailsAs.bind {outcome : Except Error First} {next : First → Except Error Second}
    (first : FailsAs kind outcome) (second : ∀ value, FailsAs kind (next value)) :
    FailsAs kind (outcome >>= next) := by
  intro cause failed
  rcases bind_eq_error.mp failed with failedFirst | ⟨value, _, failedSecond⟩
  · exact first cause failedFirst
  · exact second value cause failedSecond

theorem FailsAs.map {outcome : Except Error First} (fails : FailsAs kind outcome)
    (change : First → Second) : FailsAs kind (outcome.map change) :=
  fun cause failed => fails cause (map_eq_error.mp failed)

theorem FailsAs.inLookup {outcome : Except Error First} (fails : FailsAs kind outcome)
    (within : ∀ cause, kind cause = true → cause.isOfLookup = true) : FailsInLookup outcome :=
  fun cause failed => within cause (fails cause failed)

end Combinators

/-! ### Values -/

theorem Placeholder.failsAs_expand {kind : Error → Bool}
    {find : String → Except Error (Option String)} (finds : ∀ name, FailsAs kind (find name))
    (circles : ∀ chain, kind (.cycle chain) = true) (enterable entered : List String)
    (text : List Char) : FailsAs kind (expand find enterable entered text) := by
  fun_induction expand find enterable entered text with
  | case1 | case2 | case6 | case9 => exact failsAs_ok _
  | case4 => exact .raise ‹_ = Except.error _› (finds _)
  | case10 => exact failsAs_error (circles _)
  -- The inside, the value of the name or the rest of the text fails.
  | case3 | case5 | case7 | case8 => exact .raise ‹_ = Except.error _› ‹_›

namespace Lookup

variable (lookup : Lookup)

theorem failsAs_checkInactive (name : String) :
    FailsAs lookup.mayFail (lookup.checkInactive name) := by
  unfold checkInactive
  split
  · exact failsAs_ok _
  · next refuses =>
    split
    · refine failsAs_error ?_
      show (lookup.focus.isNone && lookup.rule.rejectInactive) = true
      rw [Bool.or_eq_true, not_or, Option.not_isSome_iff_eq_none, Bool.not_eq_true',
        Bool.not_eq_false] at refuses
      rw [refuses.1, refuses.2]
      rfl
    · exact failsAs_ok _

theorem failsAs_findInPlaceholder (name : String) :
    FailsAs lookup.mayFail (lookup.findInPlaceholder name) := by
  unfold findInPlaceholder
  split
  · exact failsAs_ok _
  · exact (lookup.failsAs_checkInactive name).map _

theorem failsAs_expanded (name raw : String) :
    FailsAs lookup.mayFail (lookup.expanded name raw) := by
  unfold expanded Placeholder.valueOf
  split
  · exact (Placeholder.failsAs_expand lookup.failsAs_findInPlaceholder (fun _ => rfl) _ _ _).map _
  · exact failsAs_ok _

theorem failsAs_get (name : String) : FailsAs lookup.mayFail (lookup.get name) := by
  unfold get
  split
  · exact failsAs_ok _
  · exact (lookup.failsAs_checkInactive name).bind fun _ =>
      (lookup.failsAs_expanded name _).bind fun _ => failsAs_ok _

/-! ### Lists -/

theorem failsAs_elementsFrom (layer : Layer) (view : View) (name : String)
    (index remaining : Nat) :
    FailsAs lookup.mayFail (lookup.elementsFrom layer view name index remaining) := by
  induction remaining generalizing index with
  | zero => exact failsAs_ok _
  | succ remaining inductionHypothesis =>
    rw [elementsFrom]
    split
    · exact failsAs_error rfl
    · exact (lookup.failsAs_expanded _ _).bind fun _ =>
        (inductionHypothesis _).bind fun _ => failsAs_ok _

theorem failsAs_listIn (name : String) (layers : List Layer) :
    FailsAs lookup.mayFail (lookup.listIn name layers) := by
  induction layers with
  | nil => exact failsAs_ok _
  | cons layer rest inductionHypothesis =>
    rw [listIn]
    split
    · exact inductionHypothesis
    · dsimp only
      split
      · exact (lookup.failsAs_checkInactive name).bind fun _ =>
          (lookup.failsAs_expanded name _).bind fun _ => failsAs_ok _
      · split
        · exact (lookup.failsAs_checkInactive name).bind fun _ =>
            (lookup.failsAs_elementsFrom layer _ name 0 _).bind fun _ => failsAs_ok _
        · exact inductionHypothesis

theorem failsAs_getList (name : String) : FailsAs lookup.mayFail (lookup.getList name) :=
  lookup.failsAs_listIn name _

/-! ### Binding and profiles -/

theorem failsAs_readLocations (declared : List String) :
    FailsAs lookup.mayFail (readLocations declared) := by
  induction declared with
  | nil => exact failsAs_ok _
  | cons first rest inductionHypothesis =>
    have read : FailsAs lookup.mayFail (Location.read first) := by
      unfold Location.read
      split
      · exact failsAs_ok _
      · exact failsAs_error rfl
    exact read.bind fun _ => inductionHypothesis.bind fun _ => failsAs_ok _

theorem failsAs_getImports : FailsAs lookup.mayFail lookup.getImports :=
  (lookup.failsAs_getList _).bind fun _ => lookup.failsAs_readLocations _

theorem failsAs_getCondition : FailsAs lookup.mayFail lookup.getCondition := by
  refine (lookup.failsAs_get _).bind fun text? => ?_
  have read (text : String) : FailsAs lookup.mayFail (Condition.read text) := by
    unfold Condition.read
    split
    · exact failsAs_ok _
    · exact failsAs_error rfl
  split
  · exact failsAs_ok _
  · split
    · exact failsAs_ok _
    · exact (read _).bind fun _ => failsAs_ok _

theorem failsAs_getDeclared : FailsAs lookup.mayFail lookup.getDeclared :=
  lookup.failsAs_getCondition.bind fun _ =>
    lookup.failsAs_getImports.bind fun _ => failsAs_ok _

theorem failsAs_getProfiles (name : String) : FailsAs lookup.mayFail (lookup.getProfiles name) :=
  (lookup.failsAs_getList name).bind fun _ => failsAs_ok _

theorem failsAs_computeProfiles (request : ProfileRequest) :
    FailsAs lookup.mayFail (lookup.computeProfiles request) := by
  refine (lookup.failsAs_getProfiles _).bind fun included => ?_
  have ending (next : List String → Profiles) :
      FailsAs lookup.mayFail (if request.fallback.isEmpty ||
          request.fallback.any (· ≠ ProfileRequest.standardProfile) then do
        let otherwise ← pure request.fallback
        pure (next otherwise)
      else do
        let otherwise ← (lookup.getProfiles PropertyName.defaultProfiles).map
          (·.getD [ProfileRequest.standardProfile])
        pure (next otherwise)) := by
    split
    · exact failsAs_ok _
    · exact ((lookup.failsAs_getProfiles _).map _).bind fun _ => failsAs_ok _
  unfold selectProfiles
  dsimp only
  split
  · exact ((lookup.failsAs_getProfiles _).map _).bind fun _ => ending _
  · exact ending _

theorem failsInLookup_computeProfiles (request : ProfileRequest) :
    FailsInLookup (lookup.computeProfiles request) :=
  (lookup.failsAs_computeProfiles request).inLookup fun _ => isOfLookup_of_mayFail

end Lookup

theorem Layer.failsAs_bind (lookup : Lookup) (layer : Layer) :
    FailsAs lookup.mayFail (layer.bind lookup) := by
  unfold Layer.bind
  split
  · exact lookup.failsAs_getImports.bind fun _ => failsAs_ok _
  · exact lookup.failsAs_getDeclared.bind fun _ => failsAs_ok _
  · exact failsAs_ok _

namespace LayerTree

theorem failsAs_bindLayer (tree : LayerTree) (known : Option Profiles) (layer : Layer) :
    FailsAs Error.isOfBinding (tree.bindLayer known layer) := by
  refine FailsAs.bind ?_ fun _ => failsAs_ok _
  rw [← Lookup.mayFail_ofLayer tree layer known]
  exact layer.failsAs_bind _

theorem failsAs_bindLayers (tree : LayerTree) (layers : List Layer) :
    FailsAs Error.isOfBinding (tree.bindLayers layers) := by
  induction layers generalizing tree with
  | nil => exact failsAs_ok _
  | cons layer rest inductionHypothesis =>
    exact (tree.failsAs_bindLayer none layer).bind fun next => inductionHypothesis next

theorem failsAs_ofBoundSources (sources : List Source) :
    FailsAs Error.isOfBinding (ofBoundSources sources) :=
  failsAs_bindLayers _ _

theorem failsInLookup_bindLayer (tree : LayerTree) (known : Option Profiles) (layer : Layer) :
    FailsInLookup (tree.bindLayer known layer) :=
  (tree.failsAs_bindLayer known layer).inLookup fun _ => Error.isOfLookup_of_isOfBinding

theorem failsInLookup_ofBoundSources (sources : List Source) :
    FailsInLookup (ofBoundSources sources) :=
  (failsAs_ofBoundSources sources).inLookup fun _ => Error.isOfLookup_of_isOfBinding

end LayerTree

end LayeredConfig
