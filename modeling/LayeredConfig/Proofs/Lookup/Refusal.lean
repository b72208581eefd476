/-
This file compares the lookup that refuses with the lookups that do not.

Three rules ask different layers: the layers that take part, all layers, or all layers with a
refusal of every name that a layer without part declares. A name that is not refused is declared
only by layers that take part, so the layers in which the rules differ have nothing to say about it.
This holds for the name that is asked for and for every name met in a placeholder, however deep;
hence where the third rule does not refuse, all three come to the same value or to the same error.
-/

import LayeredConfig.Lookup.Basic
import LayeredConfig.Proofs.Run

namespace LayeredConfig

/-! ### Refused or the same -/

section RefusedOr

variable {First Second : Type}

/-- The computation fails since a layer that takes no part declares a property. -/
def IsRefused (outcome : Except Error First) : Prop :=
  ∃ property layer, outcome = .error (.inactive property layer)

/-- The first computation is refused, or it comes to what the second one comes to. -/
def RefusedOr (strict lenient : Except Error First) : Prop :=
  IsRefused strict ∨ strict = lenient

theorem refusedOr_self (outcome : Except Error First) : RefusedOr outcome outcome :=
  Or.inr rfl

theorem IsRefused.bind {outcome : Except Error First} (refused : IsRefused outcome)
    (next : First → Except Error Second) : IsRefused (outcome >>= next) := by
  obtain ⟨property, layer, rfl⟩ := refused
  exact ⟨property, layer, rfl⟩

theorem RefusedOr.bind {strict lenient : Except Error First}
    {next other : First → Except Error Second} (first : RefusedOr strict lenient)
    (second : ∀ value, strict = .ok value → RefusedOr (next value) (other value)) :
    RefusedOr (strict >>= next) (lenient >>= other) := by
  rcases first with refused | rfl
  · exact Or.inl (refused.bind next)
  · cases strict with
    | error cause => exact refusedOr_self _
    | ok value => exact second value rfl

theorem RefusedOr.map {strict lenient : Except Error First} (first : RefusedOr strict lenient)
    (change : First → Second) : RefusedOr (strict.map change) (lenient.map change) := by
  rcases first with ⟨property, layer, rfl⟩ | rfl
  · exact Or.inl ⟨property, layer, rfl⟩
  · exact refusedOr_self _

end RefusedOr

/-! ### Placeholders -/

namespace Placeholder

/-- What a placeholder makes way for, given its expanded inside. -/
def filling (find : String → Except Error (Option String)) (enterable entered : List String)
    (inside : List Char) : Except Error (List Char) :=
  let key := String.ofList (cutDefault inside).1
  find key >>= fun
    | none => .ok (unresolved inside)
    | some raw =>
      if canonical key ∈ enterable then
        expand find (without (canonical key) enterable) (entered ++ [key]) raw.toList
      else .error (.cycle (cycleOf entered key))

section Expand

variable {find : String → Except Error (Option String)} {enterable entered : List String}
  {text before rest body tail : List Char}

theorem expand_of_none (opening : cutOpening? text = none) :
    expand find enterable entered text = .ok text := by
  rw [expand]
  split
  · rfl
  · next opened =>
    rw [opening] at opened
    cases opened

theorem expand_of_unclosed (opening : cutOpening? text = some (before, rest))
    (closing : cutClosing? 0 rest = none) : expand find enterable entered text = .ok text := by
  rw [expand]
  split
  · rfl
  · next opened =>
    obtain ⟨rfl, rfl⟩ := Prod.mk.inj (Option.some.inj (opening.symm.trans opened))
    split
    · rfl
    · next closed =>
      rw [closing] at closed
      cases closed

/-- The expansion of a text with a placeholder, one part after the other. -/
theorem expand_of_placeholder (opening : cutOpening? text = some (before, rest))
    (closing : cutClosing? 0 rest = some (body, tail)) :
    expand find enterable entered text = do
      let inside ← expand find enterable entered body
      let value ← filling find enterable entered inside
      let following ← expand find enterable entered tail
      return before ++ value ++ following := by
  rw [expand]
  split
  · next noOpening =>
    rw [opening] at noOpening
    cases noOpening
  · next opened =>
    obtain ⟨rfl, rfl⟩ := Prod.mk.inj (Option.some.inj (opening.symm.trans opened))
    split
    · next noClosing =>
      rw [closing] at noClosing
      cases noClosing
    · next closed =>
      obtain ⟨rfl, rfl⟩ := Prod.mk.inj (Option.some.inj (closing.symm.trans closed))
      cases expand find enterable entered body with
      | error cause => rfl
      | ok inside =>
        dsimp only [bind, Except.bind, filling]
        generalize String.ofList (cutDefault inside).1 = key
        rcases find key with cause | (_ | raw)
        · rfl
        · dsimp only
          cases expand find enterable entered tail <;> rfl
        · dsimp only
          by_cases member : canonical key ∈ enterable
          · rw [dif_pos member, if_pos member]
            generalize expand find _ _ raw.toList = value
            cases value with
            | error cause => rfl
            | ok value =>
              dsimp only
              cases expand find enterable entered tail <;> rfl
          · rw [dif_neg member, if_neg member]

end Expand

theorem mem_without {name other : String} {names : List String} :
    other ∈ without name names ↔ other ∈ names ∧ other ≠ name := by
  rw [without, List.mem_filter, decide_eq_true_iff]

/-- Two ways to find raw texts expand a text to the same, unless the first one refuses a name.

The names that may be entered need to agree only on what the first way finds. -/
theorem refusedOr_expand {find other : String → Except Error (Option String)}
    (agree : ∀ key, RefusedOr (find key) (other key)) (shared : String → Prop)
    (found : ∀ key raw, find key = .ok (some raw) → shared (canonical key))
    (enterable otherEnterable entered : List String)
    (same : ∀ name, shared name → (name ∈ enterable ↔ name ∈ otherEnterable))
    (text : List Char) :
    RefusedOr (expand find enterable entered text) (expand other otherEnterable entered text) := by
  cases opening : cutOpening? text with
  | none =>
    rw [expand_of_none opening, expand_of_none opening]
    exact refusedOr_self _
  | some opened =>
    obtain ⟨before, rest⟩ := opened
    cases closing : cutClosing? 0 rest with
    | none =>
      rw [expand_of_unclosed opening closing, expand_of_unclosed opening closing]
      exact refusedOr_self _
    | some closed =>
      obtain ⟨body, tail⟩ := closed
      have bodyShorter : body.length < text.length := by
        have := length_cutOpening opening
        have := length_cutClosing closing
        omega
      have tailShorter : tail.length < text.length := by
        have := length_cutOpening opening
        have := length_cutClosing closing
        omega
      rw [expand_of_placeholder opening closing, expand_of_placeholder opening closing]
      refine (refusedOr_expand agree shared found _ _ entered same body).bind fun inside _ => ?_
      refine RefusedOr.bind ?_ fun value _ =>
        (refusedOr_expand agree shared found _ _ entered same tail).bind fun _ _ => refusedOr_self _
      refine (agree _).bind fun value? isFound => ?_
      cases value? with
      | none => exact refusedOr_self _
      | some raw =>
        have isShared := found _ raw isFound
        dsimp only
        by_cases member : canonical (String.ofList (cutDefault inside).1) ∈ enterable
        · have fewer := length_without_lt member
          rw [if_pos member, if_pos ((same _ isShared).mp member)]
          refine refusedOr_expand agree shared found _ _ _ (fun name isShared => ?_) raw.toList
          rw [mem_without, mem_without, same name isShared]
        · rw [if_neg member, if_neg fun otherMember => member ((same _ isShared).mpr otherMember)]
          exact refusedOr_self _
  termination_by (enterable.length, text.length)

/-- The value of a property is the same in both ways, unless the first one refuses a name. -/
theorem refusedOr_valueOf {find other : String → Except Error (Option String)}
    (agree : ∀ key, RefusedOr (find key) (other key)) {declared otherDeclared : List String}
    (found : ∀ key raw, find key = .ok (some raw) →
      canonical key ∈ declared ∧ canonical key ∈ otherDeclared) (name raw : String) :
    RefusedOr (valueOf find declared name raw) (valueOf other otherDeclared name raw) := by
  unfold valueOf
  split
  · refine (refusedOr_expand agree (fun key => key ∈ declared ∧ key ∈ otherDeclared) found _ _ _
      (fun key both => ?_) raw.toList).map _
    rw [mem_without, mem_without]
    exact and_congr_left fun _ => iff_of_true both.1 both.2
  · exact refusedOr_self _

end Placeholder

/-! ### What layers declare -/

namespace Layer

theorem declares_of_value {layer : Layer} {name raw : String}
    (value : layer.value? name = some raw) : layer.declares name = true := by
  unfold value? at value
  unfold declares
  cases source : layer.source? with
  | none =>
    rw [source] at value
    cases value
  | some own =>
    rw [source] at value
    show own.view.declares name = true
    rw [View.declares, View.contains, show own.view.get? name = some raw from value]
    rfl

/-- A layer that declares something has a source. -/
theorem isSome_source_of_declares {layer : Layer} {name : String}
    (declares : layer.declares name = true) : layer.source?.isSome = true := by
  unfold Layer.declares at declares
  cases source : layer.source? with
  | none =>
    rw [source] at declares
    cases declares
  | some => rfl

theorem canonical_mem_names {view : View} {name raw : String} (value : view.get? name = some raw) :
    canonical name ∈ view.names :=
  List.mem_map_of_mem (View.mem_of_lookup value)

end Layer

/-! ### Lookups -/

namespace Lookup

section Rules

variable {tree : LayerTree} {known : Option Profiles} {activeOnly : Bool} {name : String}

theorem candidates_strict :
    (overTree tree known .strict).candidates = tree.layers.filter (·.source?.isSome) := by
  simp [candidates, overTree, LookupRule.strict, LookupRule.passesOver]

/-- Without refusal, layers without part may be left out; otherwise the same layers are asked. -/
theorem candidates_lenient :
    (overTree tree known ⟨activeOnly, false⟩).candidates =
      (overTree tree known .strict).candidates.filter
        fun layer => !activeOnly || layer.isActive known := by
  rw [candidates_strict, List.filter_filter]
  simp [candidates, overTree, LookupRule.passesOver, Bool.and_comm]

theorem placeholderCandidates_overTree (rule : LookupRule) :
    (overTree tree known rule).placeholderCandidates = (overTree tree known rule).candidates := rfl

theorem checkInactive_lenient :
    (overTree tree known ⟨activeOnly, false⟩).checkInactive name = .ok () := rfl

/-- A name is refused if a layer without part declares it. -/
theorem refused_of_inactive {layer : Layer} (member : layer ∈ tree.layers)
    (inactive : layer.isActive known = false) (declares : layer.declares name = true) :
    ∃ offender, (overTree tree known .strict).checkInactive name =
      .error (.inactive name offender) := by
  have someOffends : (tree.layers.find? fun layer =>
      !layer.isActive known && layer.declares name).isSome = true := by
    rw [List.find?_isSome]
    exact ⟨layer, member, by rw [inactive, declares]; rfl⟩
  obtain ⟨offender, isOffender⟩ := Option.isSome_iff_exists.mp someOffends
  refine ⟨offender.name, ?_⟩
  simp only [checkInactive, overTree, LookupRule.strict, isOffender]
  rfl

/-- A check ends with a refusal of the name that is checked, or it passes. -/
theorem checkInactive_cases (lookup : Lookup) (name : String) :
    (∃ offender, lookup.checkInactive name = .error (.inactive name offender)) ∨
      lookup.checkInactive name = .ok () := by
  unfold checkInactive
  split
  · exact Or.inr rfl
  · split
    · next offender _ => exact Or.inl ⟨offender.name, rfl⟩
    · exact Or.inr rfl

/-- A name that is not refused is declared only by layers that take part. -/
theorem isActive_of_passed (passed : (overTree tree known .strict).checkInactive name = .ok ())
    {layer : Layer} (member : layer ∈ tree.layers) (declares : layer.declares name = true) :
    layer.isActive known = true := by
  rw [← Bool.not_eq_false]
  intro inactive
  obtain ⟨offender, refused⟩ := refused_of_inactive member inactive declares
  rw [refused] at passed
  cases passed

theorem mem_layers_of_candidate {layer : Layer}
    (member : layer ∈ (overTree tree known .strict).candidates) : layer ∈ tree.layers := by
  rw [candidates_strict] at member
  exact (List.mem_filter.mp member).1

/-- What the dropped elements do not supply is supplied by the others. -/
theorem findSome?_filter_of_kept {Element Value : Type} {supplies : Element → Option Value}
    {keep : Element → Bool} {elements : List Element}
    (kept : ∀ element ∈ elements, supplies element ≠ none → keep element = true) :
    (elements.filter keep).findSome? supplies = elements.findSome? supplies := by
  induction elements with
  | nil => rfl
  | cons first rest inductionHypothesis =>
    have restSame := inductionHypothesis fun element member =>
      kept element (List.mem_cons_of_mem _ member)
    cases supplied : supplies first with
    | none =>
      rw [List.findSome?_cons, supplied]
      by_cases keepsFirst : keep first = true
      · rw [List.filter_cons_of_pos keepsFirst, List.findSome?_cons, supplied]
        exact restSame
      · rw [List.filter_cons_of_neg keepsFirst]
        exact restSame
    | some value =>
      have keepsFirst := kept first List.mem_cons_self
        (by rw [supplied]; exact Option.some_ne_none _)
      rw [List.filter_cons_of_pos keepsFirst, List.findSome?_cons, List.findSome?_cons, supplied]

/-- A name has a raw value for no rule, or it is refused, or it has the same for every rule. -/
theorem search_cases (activeOnly : Bool) (name : String) :
    ((overTree tree known .strict).candidates.findSome? (·.value? name) = none ∧
      (overTree tree known ⟨activeOnly, false⟩).candidates.findSome? (·.value? name) = none) ∨
    ∃ raw, (overTree tree known .strict).candidates.findSome? (·.value? name) = some raw ∧
      ((∃ offender, (overTree tree known .strict).checkInactive name =
          .error (.inactive name offender)) ∨
        (overTree tree known .strict).checkInactive name = .ok () ∧
          (overTree tree known ⟨activeOnly, false⟩).candidates.findSome? (·.value? name) =
            some raw) := by
  cases searched : (overTree tree known .strict).candidates.findSome? (·.value? name) with
  | none =>
    refine Or.inl ⟨rfl, ?_⟩
    rw [List.findSome?_eq_none_iff] at searched ⊢
    intro layer member
    rw [candidates_lenient] at member
    exact searched layer (List.mem_filter.mp member).1
  | some raw =>
    refine Or.inr ⟨raw, rfl, (checkInactive_cases _ name).imp_right fun passed => ⟨passed, ?_⟩⟩
    rw [candidates_lenient, findSome?_filter_of_kept, searched]
    intro layer member supplies
    obtain ⟨value, isValue⟩ := Option.ne_none_iff_exists'.mp supplies
    rw [isActive_of_passed passed (mem_layers_of_candidate member)
      (Layer.declares_of_value isValue), Bool.or_true]

theorem mem_declaredNames {lookup : Lookup} {raw : String}
    (searched : lookup.placeholderCandidates.findSome? (·.value? name) = some raw) :
    canonical name ∈ lookup.declaredNames := by
  obtain ⟨layer, member, value⟩ := List.exists_of_findSome?_eq_some searched
  refine List.mem_flatMap.mpr ⟨layer, member, ?_⟩
  unfold Layer.value? at value
  cases source : layer.source? with
  | none =>
    rw [source] at value
    cases value
  | some own =>
    rw [source] at value
    exact Layer.canonical_mem_names value

/-! ### Values -/

theorem refusedOr_findInPlaceholder (activeOnly : Bool) (name : String) :
    RefusedOr ((overTree tree known .strict).findInPlaceholder name)
      ((overTree tree known ⟨activeOnly, false⟩).findInPlaceholder name) := by
  rw [findInPlaceholder, findInPlaceholder, placeholderCandidates_overTree,
    placeholderCandidates_overTree]
  rcases search_cases activeOnly name with ⟨strictNone, lenientNone⟩ | ⟨raw, strictSome, rest⟩
  · rw [strictNone, lenientNone]
    exact refusedOr_self _
  · rw [strictSome]
    rcases rest with ⟨offender, refused⟩ | ⟨passed, lenientSome⟩
    · rw [refused]
      exact Or.inl ⟨name, offender, rfl⟩
    · rw [lenientSome, passed]
      exact refusedOr_self _

/-- What a placeholder finds without refusal may be entered under every rule. -/
theorem declaredNames_of_found {key raw : String}
    (found : (overTree tree known .strict).findInPlaceholder key = .ok (some raw)) :
    canonical key ∈ (overTree tree known .strict).declaredNames ∧
      canonical key ∈ (overTree tree known ⟨activeOnly, false⟩).declaredNames := by
  rw [findInPlaceholder, placeholderCandidates_overTree] at found
  rcases search_cases activeOnly key with ⟨strictNone, _⟩ | ⟨value, strictSome, rest⟩
  · rw [strictNone] at found
    cases found
  · rcases rest with ⟨offender, refused⟩ | ⟨_, lenientSome⟩
    · rw [strictSome, refused] at found
      cases found
    · exact ⟨mem_declaredNames strictSome, mem_declaredNames lenientSome⟩

theorem refusedOr_expanded (activeOnly : Bool) (name raw : String) :
    RefusedOr ((overTree tree known .strict).expanded name raw)
      ((overTree tree known ⟨activeOnly, false⟩).expanded name raw) := by
  unfold expanded
  split
  · exact Placeholder.refusedOr_valueOf (refusedOr_findInPlaceholder activeOnly)
      (fun _ _ => declaredNames_of_found) name raw
  · exact refusedOr_self _

theorem refusedOr_get (activeOnly : Bool) (name : String) :
    RefusedOr ((overTree tree known .strict).get name)
      ((overTree tree known ⟨activeOnly, false⟩).get name) := by
  rw [get, get]
  rcases search_cases activeOnly name with ⟨strictNone, lenientNone⟩ | ⟨raw, strictSome, rest⟩
  · rw [strictNone, lenientNone]
    exact refusedOr_self _
  · rw [strictSome]
    rcases rest with ⟨offender, refused⟩ | ⟨passed, lenientSome⟩
    · exact Or.inl (IsRefused.bind ⟨name, offender, refused⟩ _)
    · rw [lenientSome]
      dsimp only
      rw [passed, checkInactive_lenient]
      exact (refusedOr_expanded activeOnly name raw).bind fun value _ => refusedOr_self _

/-! ### Lists -/

theorem refusedOr_elementsFrom (activeOnly : Bool) (layer : Layer) (view : View) (name : String)
    (index remaining : Nat) :
    RefusedOr ((overTree tree known .strict).elementsFrom layer view name index remaining)
      ((overTree tree known ⟨activeOnly, false⟩).elementsFrom layer view name index remaining) := by
  induction remaining generalizing index with
  | zero => exact refusedOr_self _
  | succ remaining inductionHypothesis =>
    rw [elementsFrom, elementsFrom]
    cases view.element? name index with
    | none => exact refusedOr_self _
    | some raw =>
      exact (refusedOr_expanded activeOnly _ raw).bind fun item _ =>
        (inductionHypothesis (index + 1)).bind fun rest _ => refusedOr_self _

/-- The value of a list property as one layer declares it. -/
def ownList (lookup : Lookup) (name : String) (layer : Layer) :
    Except Error (Option (List String)) :=
  match layer.source? with
  | none => .ok none
  | some source =>
    match source.view.get? name with
    | some raw => do
      let value ← lookup.expanded name raw
      return some (itemsOfScalar value)
    | none => do
      let items ← lookup.elementsFrom layer source.view name 0 (source.view.elementCount name)
      return some items

/-- A list is that of the first layer that declares it, if the name is not refused. -/
theorem listIn_eq (lookup : Lookup) (name : String) (layers : List Layer) :
    lookup.listIn name layers =
      match layers.find? (·.declares name) with
      | none => .ok none
      | some layer => lookup.checkInactive name >>= fun _ => lookup.ownList name layer := by
  induction layers with
  | nil => rfl
  | cons first rest inductionHypothesis =>
    rw [listIn, List.find?_cons, inductionHypothesis]
    unfold ownList Layer.declares
    cases source : first.source? with
    | none => rfl
    | some own =>
      dsimp only
      rw [View.declares, View.contains]
      cases scalar : own.view.get? name with
      | some raw => simp [source, scalar]
      | none =>
        cases elements : own.view.hasElements name with
        | true => simp [source, scalar]
        | false => simp

theorem refusedOr_ownList (activeOnly : Bool) (name : String) (layer : Layer) :
    RefusedOr ((overTree tree known .strict).ownList name layer)
      ((overTree tree known ⟨activeOnly, false⟩).ownList name layer) := by
  unfold ownList
  split
  · exact refusedOr_self _
  · split
    · exact (refusedOr_expanded activeOnly name _).bind fun _ _ => refusedOr_self _
    · exact (refusedOr_elementsFrom activeOnly layer _ name 0 _).bind fun _ _ => refusedOr_self _

theorem refusedOr_getList (activeOnly : Bool) (name : String) :
    RefusedOr ((overTree tree known .strict).getList name)
      ((overTree tree known ⟨activeOnly, false⟩).getList name) := by
  rw [getList, getList, listIn_eq, listIn_eq]
  cases declaring : (overTree tree known .strict).candidates.find? (·.declares name) with
  | none =>
    have noneDeclares : (overTree tree known ⟨activeOnly, false⟩).candidates.find?
        (·.declares name) = none := by
      rw [List.find?_eq_none] at declaring ⊢
      intro layer member
      rw [candidates_lenient] at member
      exact declaring layer (List.mem_filter.mp member).1
    rw [noneDeclares]
    exact refusedOr_self _
  | some layer =>
    rcases checkInactive_cases (overTree tree known .strict) name with ⟨offender, refused⟩ | passed
    · exact Or.inl (IsRefused.bind ⟨name, offender, refused⟩ _)
    · have same : (overTree tree known ⟨activeOnly, false⟩).candidates.find? (·.declares name) =
          some layer := by
        rw [candidates_lenient, List.find?_eq_findSome?_guard, findSome?_filter_of_kept,
          ← List.find?_eq_findSome?_guard, declaring]
        intro other member declares
        rw [isActive_of_passed passed (mem_layers_of_candidate member), Bool.or_true]
        simpa using declares
      rw [same]
      dsimp only
      rw [passed, checkInactive_lenient]
      exact refusedOr_ownList activeOnly name layer

end Rules

/-! ### The three rules -/

/-- Under the rule that refuses, a lookup of a value or of a list is refused, or it comes to the
value or the error that it comes to under the other two rules; and a list is refused whenever a
layer that takes no part declares its name, as a scalar or by an element. -/
theorem strict_refuses_or_agrees (tree : LayerTree) (known : Option Profiles) (name : String) :
    (IsRefused ((overTree tree known .strict).get name) ∨
      (overTree tree known .strict).get name = (overTree tree known .active).get name ∧
      (overTree tree known .strict).get name = (overTree tree known .unrestricted).get name) ∧
    (IsRefused ((overTree tree known .strict).getList name) ∨
      (overTree tree known .strict).getList name = (overTree tree known .active).getList name ∧
      (overTree tree known .strict).getList name =
        (overTree tree known .unrestricted).getList name) ∧
    ∀ layer ∈ tree.layers, layer.isActive known = false → layer.declares name = true →
      ∃ offender, (overTree tree known .strict).getList name =
        .error (.inactive name offender) := by
  refine ⟨?_, ?_, fun layer member inactive declares => ?_⟩
  · rcases refusedOr_get true name with refused | active
    · exact Or.inl refused
    · exact (refusedOr_get false name).imp_right fun unrestricted => ⟨active, unrestricted⟩
  · rcases refusedOr_getList true name with refused | active
    · exact Or.inl refused
    · exact (refusedOr_getList false name).imp_right fun unrestricted => ⟨active, unrestricted⟩
  · obtain ⟨offender, refused⟩ := refused_of_inactive member inactive declares
    refine ⟨offender, ?_⟩
    rw [getList, listIn_eq]
    have isCandidate : layer ∈ (overTree tree known .strict).candidates := by
      rw [candidates_strict]
      exact List.mem_filter.mpr ⟨member, Layer.isSome_source_of_declares declares⟩
    cases declaring : (overTree tree known .strict).candidates.find? (·.declares name) with
    | none => exact absurd declares (List.find?_eq_none.mp declaring layer isCandidate)
    | some first =>
      dsimp only
      rw [refused]
      rfl

/-- An initial layer with a layer below it that is only for a profile, while none is known. -/
def gatedTree : LayerTree :=
  let hidden : Layer := .node 2 0 (.bound ⟨⟨⟨"h", false⟩, "h", none⟩, true, .before⟩
    (.ofPairs "hidden" [("x[0]", "secret")]) ⟨[], none⟩) none none
  let visible : Layer := .node 1 0 (.initial (.ofPairs "visible" [("x", "seen")]) [])
    (some [hidden]) none
  ⟨.node 0 0 .root (some [visible]) none, 3⟩

/-- An element in the hidden layer is enough for the list of the visible one to be refused. -/
theorem strict_refuses_gatedTree :
    (∃ layer ∈ gatedTree.layers, layer.isActive none = false ∧ layer.declares "x" = true) ∧
      ((overTree gatedTree none .active).getList "x").toOption = some (some ["seen"]) ∧
      ∃ offender, (overTree gatedTree none .strict).getList "x" =
        .error (.inactive "x" offender) := by
  have gated : ∃ layer ∈ gatedTree.layers,
      layer.isActive none = false ∧ layer.declares "x" = true := by
    decide +kernel
  refine ⟨gated, by decide +kernel, ?_⟩
  obtain ⟨layer, member, inactive, declares⟩ := gated
  exact (strict_refuses_or_agrees gatedTree none "x").2.2 layer member inactive declares

end Lookup

end LayeredConfig
