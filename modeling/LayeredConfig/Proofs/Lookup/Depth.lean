/-
This file proves that looking up a property ends, and how deep it goes.

The lookup that runs stops at a name that it may not enter any more; it is told the names it may
enter. Here it is written once more without such a list. What keeps it from entering a name again is
only that a name of the same canonical spelling is being expanded, and what keeps it from running on
is only the depth that it is allowed: at the end of that it gives up.

It never does if it may go deep enough. A text that is expanded is a part of a raw value, so every
call that enters no name has less text to read, and as many names can be entered inside one another
as there are to be found, provided that names which find the same are also told to be the same. Both
lookups then come to the same value or the same error.
-/

import LayeredConfig.Proofs.Lookup.Refusal

namespace LayeredConfig

open Text

/-! ### Giving up -/

/-- A computation that may fail, and that may also give up. -/
abbrev Limited (Result : Type) := ExceptT Error Option Result

namespace Limited

variable {First Second : Type}

def gaveUp : Limited First := ExceptT.mk none

def ofExcept (outcome : Except Error First) : Limited First := ExceptT.mk (some outcome)

@[simp] theorem run_ofExcept (outcome : Except Error First) :
    (ofExcept outcome).run = some outcome := rfl

/-- What follows a computation that does not give up matters only for the value it comes to. -/
theorem bind_ofExcept {run : Limited First} {outcome : Except Error First}
    (ends : run = ofExcept outcome) {next : First → Limited Second}
    {other : First → Except Error Second}
    (follows : ∀ value, outcome = .ok value → next value = ofExcept (other value)) :
    run >>= next = ofExcept (outcome >>= other) := by
  rw [ends]
  cases outcome with
  | ok value => exact follows value rfl
  | error cause => rfl

end Limited

/-! ### Placeholders -/

namespace Placeholder

/-- Expands a text with `depth` calls inside one another at most.

A name is entered unless it is among the names `entered`, in any spelling. -/
def expandWithin (find : String → Except Error (Option String)) :
    (depth : Nat) → (entered : List String) → (text : List Char) → Limited (List Char)
  | 0, _, _ => .gaveUp
  | depth + 1, entered, text =>
    match cutOpening? text with
    | none => return text
    | some (before, rest) =>
      match cutClosing? 0 rest with
      | none => return text
      | some (body, tail) => do
        let inside ← expandWithin find depth entered body
        let key := String.ofList (cutDefault inside).1
        let value ← Limited.ofExcept (find key) >>= fun
          | none => pure (unresolved inside)
          | some raw =>
            if canonical key ∈ entered.map canonical then
              Limited.ofExcept (.error (.cycle (cycleOf entered key)))
            else expandWithin find depth (entered ++ [key]) raw.toList
        let following ← expandWithin find depth entered tail
        return before ++ value ++ following

/-- The names that may be entered are those that can be found and that are not being expanded. -/
def Guards (find : String → Except Error (Option String)) (enterable entered : List String) :
    Prop :=
  ∀ key raw, find key = .ok (some raw) →
    (canonical key ∈ enterable ↔ canonical key ∉ entered.map canonical)

section Guards

variable {find : String → Except Error (Option String)} {enterable entered : List String}

/-- A name that is entered may not be entered again, and all others as before. -/
theorem Guards.enter (guards : Guards find enterable entered) (name : String) :
    Guards find (without (canonical name) enterable) (entered ++ [name]) := by
  intro key raw found
  rw [mem_without, guards key raw found, List.map_append, List.mem_append, not_or]
  simp

theorem guards_start {declared : List String}
    (finds : ∀ key raw, find key = .ok (some raw) → canonical key ∈ declared) (name : String) :
    Guards find (without (canonical name) declared) [name] := by
  have everything : Guards find declared [] := fun key raw found =>
    iff_of_true (finds key raw found) (by simp)
  exact everything.enter name

/-- With enough depth, to look at the names that are being expanded comes to the same as to be told
the names that may be entered. -/
theorem expandWithin_eq {longest depth : Nat} {text : List Char}
    (guards : Guards find enterable entered)
    (short : ∀ key raw, find key = .ok (some raw) → raw.length ≤ longest)
    (enough : enterable.length * (longest + 1) + text.length < depth) :
    expandWithin find depth entered text =
      Limited.ofExcept (expand find enterable entered text) := by
  induction depth generalizing enterable entered text with
  | zero => exact absurd enough (Nat.not_lt_zero _)
  | succ depth inductionHypothesis =>
    rw [expandWithin]
    cases opening : cutOpening? text with
    | none => rw [expand_of_none opening]; rfl
    | some opened =>
      obtain ⟨before, rest⟩ := opened
      dsimp only
      cases closing : cutClosing? 0 rest with
      | none => rw [expand_of_unclosed opening closing]; rfl
      | some closed =>
        obtain ⟨body, tail⟩ := closed
        have opened := length_cutOpening opening
        have closed := length_cutClosing closing
        rw [expand_of_placeholder opening closing]
        refine Limited.bind_ofExcept (inductionHypothesis guards (by omega)) fun inside _ => ?_
        refine Limited.bind_ofExcept ?_ fun value _ =>
          Limited.bind_ofExcept (inductionHypothesis guards (by omega)) fun following _ => rfl
        refine Limited.bind_ofExcept rfl fun raw? found => ?_
        cases raw? with
        | none => rfl
        | some raw =>
          dsimp only
          by_cases member : canonical (String.ofList (cutDefault inside).1) ∈ enterable
          · rw [if_neg ((guards _ raw found).mp member), if_pos member]
            -- The new text may be long, but there is one name less to enter.
            have fewer := Nat.mul_le_mul_right (longest + 1) (length_without_lt member)
            have rawShort := short _ raw found
            refine inductionHypothesis (guards.enter _) ?_
            rw [String.length_toList]
            rw [Nat.succ_mul] at fewer
            omega
          · rw [if_pos (Decidable.not_not.mp (mt (guards _ raw found).mpr member)), if_neg member]

end Guards

end Placeholder

/-! ### Lookups -/

namespace Lookup

/-- The raw values that a lookup can come to. -/
def rawValues (lookup : Lookup) : List String :=
  lookup.placeholderCandidates.flatMap fun layer =>
    match layer.source? with
    | some source => source.view.values.map Prod.snd
    | none => []

/-- The length of the longest raw value. -/
def longestValue (lookup : Lookup) : Nat :=
  (lookup.rawValues.map String.length).max?.getD 0

/-- A depth that does: as many texts of the longest length inside one another as there are names,
and one more. -/
def deepest (lookup : Lookup) : Nat :=
  (lookup.declaredNames.length + 1) * (lookup.longestValue + 1)

/-! The lookup as it runs, with a depth that it is allowed. -/

section Within

variable (lookup : Lookup) (depth : Nat)

def expandedWithin (name raw : String) : Limited String :=
  if Placeholder.occursIn raw then
    String.ofList <$> Placeholder.expandWithin lookup.findInPlaceholder depth [name] raw.toList
  else pure raw

def getWithin (name : String) : Limited (Option String) :=
  match lookup.candidates.findSome? (·.value? name) with
  | none => return none
  | some raw => do
    Limited.ofExcept (lookup.checkInactive name)
    let value ← lookup.expandedWithin depth name raw
    return some value

def elementsWithin (layer : Layer) (view : View) (name : String) :
    Nat → Nat → Limited (List String)
  | _, 0 => return []
  | index, remaining + 1 =>
    match view.element? name index with
    | none => Limited.ofExcept (.error (gapIn layer name index))
    | some raw => do
      let item ← lookup.expandedWithin depth (elementName name index) raw
      let rest ← elementsWithin layer view name (index + 1) remaining
      return item :: rest

def listWithin (name : String) : List Layer → Limited (Option (List String))
  | [] => return none
  | layer :: rest =>
    match layer.source? with
    | none => listWithin name rest
    | some source =>
      let view := source.view
      match view.get? name with
      | some raw => do
        Limited.ofExcept (lookup.checkInactive name)
        let value ← lookup.expandedWithin depth name raw
        return some (itemsOfScalar value)
      | none =>
        if view.hasElements name then do
          Limited.ofExcept (lookup.checkInactive name)
          let items ← lookup.elementsWithin depth layer view name 0 (view.elementCount name)
          return some items
        else listWithin name rest

def getListWithin (name : String) : Limited (Option (List String)) :=
  lookup.listWithin depth name lookup.candidates

end Within

section Enough

variable {lookup : Lookup} {layer : Layer} {source : Source} {name raw : String}

theorem mem_rawValues {key : String} (member : layer ∈ lookup.placeholderCandidates)
    (holds : layer.source? = some source) (found : source.view.values.lookup key = some raw) :
    raw ∈ lookup.rawValues := by
  refine List.mem_flatMap.mpr ⟨layer, member, ?_⟩
  rw [holds]
  exact List.mem_map_of_mem (View.mem_of_lookup found)

theorem length_le_longestValue (member : raw ∈ lookup.rawValues) :
    raw.length ≤ lookup.longestValue :=
  List.le_max?_getD_of_mem (List.mem_map_of_mem member)

theorem mem_rawValues_of_value (member : layer ∈ lookup.placeholderCandidates)
    (value : layer.value? name = some raw) : raw ∈ lookup.rawValues := by
  unfold Layer.value? at value
  cases holds : layer.source? with
  | none =>
    rw [holds] at value
    cases value
  | some source =>
    rw [holds] at value
    exact mem_rawValues member holds value

/-- A layer that is asked for a property is asked for what placeholders name, too. -/
theorem candidates_subset (lookup : Lookup) :
    lookup.candidates ⊆ lookup.placeholderCandidates := by
  intro layer member
  cases focused : lookup.focus with
  | none =>
    rw [placeholderCandidates, focused]
    exact member
  | some focus =>
    rw [candidates, focused] at member
    rw [placeholderCandidates, focused, List.mem_singleton.mp member]
    exact List.mem_cons_self

/-- What a placeholder finds is declared, and it is a raw value. -/
theorem mem_of_findInPlaceholder {key : String}
    (found : lookup.findInPlaceholder key = .ok (some raw)) :
    canonical key ∈ lookup.declaredNames ∧ raw ∈ lookup.rawValues := by
  unfold findInPlaceholder at found
  cases searched : lookup.placeholderCandidates.findSome? (·.value? key) with
  | none =>
    rw [searched] at found
    cases found
  | some value =>
    rw [searched] at found
    obtain ⟨_, passed⟩ : ∃ passed, lookup.checkInactive key = .ok passed := by
      cases checked : lookup.checkInactive key with
      | ok passed => exact ⟨passed, rfl⟩
      | error cause =>
        rw [checked] at found
        cases found
    rw [passed] at found
    cases found
    obtain ⟨layer, member, isValue⟩ := List.exists_of_findSome?_eq_some searched
    exact ⟨mem_declaredNames searched, mem_rawValues_of_value member isValue⟩

variable {depth : Nat}

/-- A raw value is expanded without giving up. -/
theorem expandedWithin_eq (enough : lookup.deepest ≤ depth) (member : raw ∈ lookup.rawValues)
    (name : String) :
    lookup.expandedWithin depth name raw = Limited.ofExcept (lookup.expanded name raw) := by
  unfold expandedWithin expanded Placeholder.valueOf
  split
  · have guards : Placeholder.Guards lookup.findInPlaceholder
        (Placeholder.without (canonical name) lookup.declaredNames) [name] :=
      Placeholder.guards_start (fun _ _ found => (mem_of_findInPlaceholder found).1) name
    have fewer : (Placeholder.without (canonical name) lookup.declaredNames).length ≤
        lookup.declaredNames.length := List.length_filter_le _ _
    have product := Nat.mul_le_mul_right (lookup.longestValue + 1) fewer
    have rawShort := length_le_longestValue member
    rw [deepest, Nat.succ_mul] at enough
    rw [Placeholder.expandWithin_eq guards
      (fun _ _ found => length_le_longestValue (mem_of_findInPlaceholder found).2)
      (by rw [String.length_toList]; omega)]
    cases Placeholder.expand _ _ _ _ <;> rfl
  · rfl

theorem getWithin_eq (enough : lookup.deepest ≤ depth) (name : String) :
    lookup.getWithin depth name = Limited.ofExcept (lookup.get name) := by
  rw [getWithin, get]
  cases searched : lookup.candidates.findSome? (·.value? name) with
  | none => rfl
  | some raw =>
    obtain ⟨layer, member, value⟩ := List.exists_of_findSome?_eq_some searched
    have isRaw := mem_rawValues_of_value (candidates_subset lookup member) value
    refine Limited.bind_ofExcept rfl fun _ _ => ?_
    exact Limited.bind_ofExcept (expandedWithin_eq enough isRaw name) fun _ _ => rfl

/-- What a lookup comes to is found out by one of enough depth, which can be evaluated. -/
theorem get_of_getWithin {outcome : Except Error (Option String)}
    (ends : (lookup.getWithin lookup.deepest name).run = some outcome) :
    lookup.get name = outcome := by
  rw [getWithin_eq (Nat.le_refl _), Limited.run_ofExcept] at ends
  exact Option.some.inj ends

theorem elementsWithin_eq (enough : lookup.deepest ≤ depth)
    (member : layer ∈ lookup.placeholderCandidates) (holds : layer.source? = some source)
    (name : String) (index remaining : Nat) :
    lookup.elementsWithin depth layer source.view name index remaining =
      Limited.ofExcept (lookup.elementsFrom layer source.view name index remaining) := by
  induction remaining generalizing index with
  | zero => rfl
  | succ remaining inductionHypothesis =>
    rw [elementsWithin, elementsFrom]
    cases found : source.view.element? name index with
    | none => rfl
    | some raw =>
      have isRaw := mem_rawValues member holds found
      refine Limited.bind_ofExcept (expandedWithin_eq enough isRaw _) fun _ _ => ?_
      exact Limited.bind_ofExcept (inductionHypothesis (index + 1)) fun _ _ => rfl

theorem listWithin_eq (enough : lookup.deepest ≤ depth) (name : String) {layers : List Layer}
    (asked : layers ⊆ lookup.placeholderCandidates) :
    lookup.listWithin depth name layers = Limited.ofExcept (lookup.listIn name layers) := by
  induction layers with
  | nil => rfl
  | cons layer rest inductionHypothesis =>
    obtain ⟨member, restAsked⟩ := List.cons_subset.mp asked
    rw [listWithin, listIn]
    cases holds : layer.source? with
    | none => exact inductionHypothesis restAsked
    | some source =>
      dsimp only
      cases found : source.view.get? name with
      | some raw =>
        have isRaw := mem_rawValues member holds found
        refine Limited.bind_ofExcept rfl fun _ _ => ?_
        exact Limited.bind_ofExcept (expandedWithin_eq enough isRaw name) fun _ _ => rfl
      | none =>
        dsimp only
        split
        · refine Limited.bind_ofExcept rfl fun _ _ => ?_
          exact Limited.bind_ofExcept (elementsWithin_eq enough member holds name 0 _)
            fun _ _ => rfl
        · exact inductionHypothesis restAsked

theorem getList_of_getListWithin {outcome : Except Error (Option (List String))}
    (ends : (lookup.getListWithin lookup.deepest name).run = some outcome) :
    lookup.getList name = outcome := by
  rw [getListWithin, listWithin_eq (Nat.le_refl _) name (candidates_subset lookup),
    Limited.run_ofExcept] at ends
  exact Option.some.inj ends

end Enough

/-- Every lookup of a value and of a list ends, whatever the layers hold and however their
placeholders nest or lead back to each other: allowed the depth that follows from the names and the
values, or any greater one, it does not give up, and it comes to the value or the error that the
lookup that runs comes to. -/
theorem lookups_end (lookup : Lookup) (name : String) (more : Nat) :
    (lookup.getWithin (lookup.deepest + more) name).run = some (lookup.get name) ∧
      (lookup.getListWithin (lookup.deepest + more) name).run = some (lookup.getList name) := by
  have enough : lookup.deepest ≤ lookup.deepest + more := Nat.le_add_right _ _
  constructor
  · rw [getWithin_eq enough, Limited.run_ofExcept]
  · rw [getListWithin, listWithin_eq enough name (candidates_subset lookup), Limited.run_ofExcept,
      getList]

end Lookup

end LayeredConfig
