/-
This file proves that expansion is stopped exactly where a text stands for nothing, and then by a
circle of names.

The names being expanded are a chain: the raw value of each asks for the next one, and no two are
spelled alike. When the text at hand asks for a name that is spelled like one of them, this chain
closes to a circle. Names that are spelled alike have the same raw value, so a name on a circle
leads back to itself, from lookup to lookup without end, and neither it nor a name that leads to it
can stand for anything. So nothing that has a meaning is refused, and all that has none is.
-/

import LayeredConfig.Proofs.Lookup.Depth
import LayeredConfig.Proofs.Lookup.Meaning
import Mathlib.Data.List.Chain
import Mathlib.Data.List.Nodup
import Mathlib.Data.List.TakeWhile
import Mathlib.Logic.Relation

namespace LayeredConfig

open Text

namespace Placeholder

/-! ### Where an expansion is stopped -/

/-- The names that are being expanded while a text is, each one asked for by the one before it. -/
structure Standing (find : String → Option String) (enterable entered : List String)
    (text : List Char) : Prop where
  guards : Guards (sure find) enterable entered
  linked : entered.IsChain (Leads find)
  distinct : (entered.map canonical).Nodup
  /-- What the text asks for is asked for by the last name. -/
  asked : ∀ key, AsksFor find text key → ∀ last ∈ entered.getLast?, Leads find last key

/-- The names `stack` are being expanded, these first, when a name is asked for once more. -/
structure Stopped (find : String → Option String) (entered stack : List String) (key : String) :
    Prop where
  first : entered <+: stack
  linked : (stack ++ [key]).IsChain (Leads find)
  distinct : (stack.map canonical).Nodup
  again : canonical key ∈ stack.map canonical

section Standing

variable {find : String → Option String} {enterable entered stack : List String}
  {text before body tail inside : List Char} {key raw : String}

theorem Standing.within (standing : Standing find enterable entered text)
    (first : first? text = some (before, body, tail)) : Standing find enterable entered body :=
  { standing with asked := fun key asks => standing.asked key (.within first asks) }

theorem Standing.after (standing : Standing find enterable entered text)
    (first : first? text = some (before, body, tail)) (within : Means find body inside)
    (ends : ∀ raw, find (keyOf inside) = some raw → ∃ value, Means find raw.toList value) :
    Standing find enterable entered tail :=
  { standing with asked := fun key asks => standing.asked key (.after first within ends asks) }

theorem Standing.linked_key (standing : Standing find enterable entered text)
    (asks : AsksFor find text key) : (entered ++ [key]).IsChain (Leads find) := by
  rw [List.isChain_append]
  refine ⟨standing.linked, List.isChain_singleton key, fun last isLast other isKey => ?_⟩
  cases isKey
  exact standing.asked key asks last isLast

/-- A name that may be entered is put after the others, and its raw value is expanded next. -/
theorem Standing.enter (standing : Standing find enterable entered text)
    (asks : AsksFor find text key) (present : find key = some raw)
    (member : canonical key ∈ enterable) :
    Standing find (without (canonical key) enterable) (entered ++ [key]) raw.toList where
  guards := standing.guards.enter key
  linked := standing.linked_key asks
  distinct := by
    have isNew := (standing.guards key raw (congrArg Except.ok present)).mp member
    rw [List.map_append, List.nodup_append]
    refine ⟨standing.distinct, List.nodup_singleton _, fun name isEntered other isKey same => ?_⟩
    rw [List.map_singleton, List.mem_singleton] at isKey
    exact isNew (isKey ▸ same ▸ isEntered)
  asked := by
    intro next asksNext last isLast
    rw [List.getLast?_append, List.getLast?_singleton, Option.some_or] at isLast
    cases isLast
    exact ⟨raw, present, asksNext⟩

/-- A name that may not be entered is among those that are being expanded. -/
theorem Standing.stopped (standing : Standing find enterable entered text)
    (asks : AsksFor find text key) (present : find key = some raw)
    (barred : canonical key ∉ enterable) : Stopped find entered entered key where
  first := List.prefix_rfl
  linked := standing.linked_key asks
  distinct := standing.distinct
  again := Decidable.of_not_not
    (mt (standing.guards key raw (congrArg Except.ok present)).mpr barred)

/-- An expansion fails only when a name is asked for once more. -/
theorem Standing.stopped_of_error {cause : Error} (enterable entered : List String)
    (text : List Char) (standing : Standing find enterable entered text)
    (failed : expand (sure find) enterable entered text = .error cause) :
    ∃ stack key, cause = .cycle (cycleOf stack key) ∧ Stopped find entered stack key := by
  cases first : first? text with
  | none =>
    rw [expand_of_plain first] at failed
    cases failed
  | some cut =>
    obtain ⟨before, body, tail⟩ := cut
    obtain ⟨bodyShorter, tailShorter⟩ := length_of_first first
    rw [expand_of_first first] at failed
    rcases bind_eq_error.mp failed with failed | ⟨inside, expandsBody, failed⟩
    · exact stopped_of_error enterable entered body (standing.within first) failed
    have within := means_of_expand _ _ _ _ expandsBody
    have asks : AsksFor find text (keyOf inside) := .here first within
    rcases bind_eq_error.mp failed with failed | ⟨filled, fills, failed⟩
    · cases present : find (keyOf inside) with
      | none =>
        rw [filling_of_missing present] at failed
        cases failed
      | some raw =>
        rw [filling_of_found present] at failed
        split at failed
        · next member =>
          have fewer := length_without_lt member
          obtain ⟨stack, key, isCycle, stopped⟩ :=
            stopped_of_error _ _ _ (standing.enter asks present member) failed
          exact ⟨stack, key, isCycle,
            { stopped with first := (List.prefix_append _ _).trans stopped.first }⟩
        · next barred =>
          rw [← Except.error.inj failed]
          exact ⟨entered, keyOf inside, rfl, standing.stopped asks present barred⟩
    · rcases bind_eq_error.mp failed with failed | ⟨following, _, failed⟩
      · refine stopped_of_error enterable entered tail
          (standing.after first within fun raw present => ?_) failed
        rw [filling_of_found present] at fills
        split at fills
        · exact ⟨filled, means_of_expand _ _ _ _ fills⟩
        · cases fills
      · cases failed
  termination_by (enterable.length, text.length)

end Standing

/-! ### Circles -/

/-- Names that lead from one to the next and from the last, in another spelling perhaps, back to
the first. -/
structure IsCircle (find : String → Option String) (chain : List String) : Prop where
  two_names : 2 ≤ chain.length
  closes : chain.head?.map canonical = chain.getLast?.map canonical
  distinct : (chain.dropLast.map canonical).Nodup
  linked : chain.IsChain (Leads find)

section Circle

variable {find : String → Option String} {entered stack : List String} {name key : String}

/-- Where an expansion is stopped, the names from the first one that is spelled alike. -/
theorem Stopped.split (stopped : Stopped find entered stack key) :
    ∃ front start rest, stack = front ++ start :: rest ∧ canonical start = canonical key ∧
      cycleOf stack key = start :: rest ++ [key] := by
  obtain ⟨entry, member, same⟩ := List.mem_map.mp stopped.again
  have stays : stack.dropWhile (canonical · != canonical key) ≠ [] := by
    intro nothing
    rw [List.dropWhile_eq_nil_iff] at nothing
    simpa [same] using nothing entry member
  obtain ⟨start, rest, isRest⟩ := List.exists_cons_of_ne_nil stays
  have kept := List.head_dropWhile_not (canonical · != canonical key) stays
  simp only [isRest, List.head_cons, bne_eq_false_iff_eq] at kept
  refine ⟨stack.takeWhile (canonical · != canonical key), start, rest, ?_, kept, ?_⟩
  · rw [← isRest, List.takeWhile_append_dropWhile]
  · rw [cycleOf, isRest]

theorem Stopped.isCircle (stopped : Stopped find entered stack key) :
    IsCircle find (cycleOf stack key) := by
  obtain ⟨front, start, rest, isStack, same, isCycle⟩ := stopped.split
  rw [isCycle]
  have suffix : start :: rest <:+ stack := ⟨front, isStack.symm⟩
  refine ⟨by simp, by rw [List.getLast?_concat, List.cons_append]; exact congrArg some same, ?_, ?_⟩
  · rw [List.dropLast_concat]
    exact stopped.distinct.sublist (suffix.sublist.map canonical)
  · refine stopped.linked.suffix ?_
    rw [isStack, List.append_assoc]
    exact List.suffix_append _ _

theorem not_self_of_acc {Element : Type} {relation : Element → Element → Prop} {element : Element}
    (accessible : Acc relation element) : ¬ relation element element := by
  induction accessible with
  | intro element _ inductionHypothesis =>
    exact fun self => inductionHypothesis element self self

/-- A name on a circle leads back to itself, without end, and so does a name that leads there. -/
theorem Stopped.not_grounded (stopped : Stopped find [name] stack key)
    (alike : ∀ one other, canonical one = canonical other → find one = find other) :
    ¬ Grounded find name := by
  intro grounded
  obtain ⟨front, start, rest, isStack, same, _⟩ := stopped.split
  have reaches : (front ++ start :: (rest ++ [key])).Pairwise (Relation.TransGen (Leads find)) := by
    rw [← List.cons_append, ← List.append_assoc, ← isStack]
    exact (stopped.linked.imp fun _ _ => Relation.TransGen.single).pairwise
  obtain ⟨_, fromStart, toStart⟩ := List.pairwise_append.mp reaches
  have startGrounded : Acc (Relation.TransGen (Function.swap (Leads find))) start := by
    obtain ⟨more, isMore⟩ := stopped.first
    cases front with
    | nil =>
      cases isStack.symm.trans isMore.symm
      exact grounded.transGen
    | cons first others =>
      cases isStack.symm.trans isMore.symm
      refine grounded.transGen.inv (Relation.transGen_swap.mpr ?_)
      exact toStart name List.mem_cons_self start List.mem_cons_self
  have toKey : Relation.TransGen (Leads find) start key :=
    (List.pairwise_cons.mp fromStart).1 key (by simp)
  -- The start of the circle is spelled like its end, so what it leads to the end leads to, too.
  have around : Relation.TransGen (Leads find) key key := by
    obtain ⟨next, ⟨raw, present, asks⟩, onwards⟩ := Relation.TransGen.head'_iff.mp toKey
    refine Relation.TransGen.head'_iff.mpr ⟨next, ⟨raw, ?_, asks⟩, onwards⟩
    rw [← alike start key same, present]
  exact not_self_of_acc (startGrounded.inv (Relation.transGen_swap.mpr toKey))
    (Relation.transGen_swap.mpr around)

/-- The expansion of the raw value of a name fails only with a circle, and only if the value stands
for nothing. -/
theorem isCircle_of_error {declared : List String} {raw : String} {cause : Error}
    (alike : ∀ one other, canonical one = canonical other → find one = find other)
    (finds : ∀ key raw, find key = some raw → canonical key ∈ declared)
    (present : find name = some raw)
    (failed : expand (sure find) (without (canonical name) declared) [name] raw.toList =
      .error cause) :
    (∃ chain, cause = .cycle chain ∧ IsCircle find chain) ∧
      ¬ ∃ value, Means find raw.toList value := by
  have standing : Standing find (without (canonical name) declared) [name] raw.toList :=
    { guards := guards_start (fun key raw found => finds key raw (Except.ok.inj found)) name
      linked := List.isChain_singleton name
      distinct := List.nodup_singleton _
      asked := by
        intro key asks last isLast
        cases isLast
        exact ⟨raw, present, asks⟩ }
  obtain ⟨stack, key, isCycle, stopped⟩ := standing.stopped_of_error _ _ _ failed
  refine ⟨⟨cycleOf stack key, isCycle, stopped.isCircle⟩, ?_⟩
  rintro ⟨value, means⟩
  exact stopped.not_grounded alike (means.grounded_name present)

end Circle

end Placeholder

/-! ### Lookups that do not refuse -/

namespace Lookup

open Placeholder

/-- The raw value that a name in a placeholder has. -/
def raw? (lookup : Lookup) (name : String) : Option String :=
  lookup.placeholderCandidates.findSome? (·.value? name)

section Lenient

variable {tree : LayerTree} {known : Option Profiles} {activeOnly : Bool} {name raw : String}

theorem findInPlaceholder_eq_sure :
    (overTree tree known ⟨activeOnly, false⟩).findInPlaceholder =
      sure (overTree tree known ⟨activeOnly, false⟩).raw? := by
  funext key
  rw [findInPlaceholder, sure, raw?]
  cases (overTree tree known ⟨activeOnly, false⟩).placeholderCandidates.findSome? (·.value? key)
  · rfl
  · rfl

theorem raw_alike (lookup : Lookup) {one other : String}
    (same : canonical one = canonical other) : lookup.raw? one = lookup.raw? other := by
  have values : (fun layer : Layer => layer.value? one) = fun layer => layer.value? other := by
    funext layer
    unfold Layer.value? View.get?
    rw [same]
  rw [raw?, raw?, values]

/-- A value is the expansion of its raw text, whether or not there are placeholders in it. -/
theorem get_eq_expand (hasRaw : (overTree tree known ⟨activeOnly, false⟩).raw? name = some raw) :
    (overTree tree known ⟨activeOnly, false⟩).get name =
      (expand (sure (overTree tree known ⟨activeOnly, false⟩).raw?)
        (without (canonical name) (overTree tree known ⟨activeOnly, false⟩).declaredNames) [name]
        raw.toList).map (some ∘ String.ofList) := by
  have searched : (overTree tree known ⟨activeOnly, false⟩).candidates.findSome? (·.value? name) =
      some raw := hasRaw
  rw [get, searched]
  dsimp only
  rw [checkInactive_lenient, expanded, valueOf, findInPlaceholder_eq_sure]
  by_cases occurs : occursIn raw = true
  · rw [if_pos occurs, if_pos occurs]
    cases expand _ _ _ _ <;> rfl
  · have plain : cutOpening? raw.toList = none := by
      simpa [occursIn] using occurs
    rw [if_neg occurs, expand_of_none plain]
    simp [Except.map, bind, Except.bind, pure, Except.pure]

end Lenient

/-- A lookup that does not refuse comes to a value exactly if the raw text of the name stands for
that value, where nothing keeps an expansion from running on. If the raw text stands for nothing,
the lookup tells a circle of names instead. -/
theorem get_iff_means (tree : LayerTree) (known : Option Profiles) (activeOnly : Bool)
    (name raw : String)
    (hasRaw : (overTree tree known ⟨activeOnly, false⟩).raw? name = some raw) :
    (∀ value, (overTree tree known ⟨activeOnly, false⟩).get name = .ok (some value) ↔
      Means (overTree tree known ⟨activeOnly, false⟩).raw? raw.toList value.toList) ∧
    ((¬ ∃ value, Means (overTree tree known ⟨activeOnly, false⟩).raw? raw.toList value) →
      ∃ chain, (overTree tree known ⟨activeOnly, false⟩).get name = .error (.cycle chain) ∧
        IsCircle (overTree tree known ⟨activeOnly, false⟩).raw? chain) := by
  rw [get_eq_expand hasRaw]
  cases outcome : expand (sure (overTree tree known ⟨activeOnly, false⟩).raw?)
      (without (canonical name) (overTree tree known ⟨activeOnly, false⟩).declaredNames) [name]
      raw.toList with
  | ok expanded =>
    have means := means_of_expand _ _ _ _ outcome
    refine ⟨fun value => ⟨fun same => ?_, fun also => ?_⟩, fun nothing => ?_⟩
    · rw [← Option.some.inj (Except.ok.inj same), String.toList_ofList]
      exact means
    · rw [means.unique also]
      exact congrArg (Except.ok ∘ some) String.ofList_toList
    · exact absurd ⟨expanded, means⟩ nothing
  | error cause =>
    obtain ⟨⟨chain, isCycle, isCircle⟩, nothing⟩ := isCircle_of_error
      (fun _ _ => raw_alike _) (fun _ _ => mem_declaredNames) hasRaw outcome
    refine ⟨fun value => ⟨fun same => ?_, fun also => ?_⟩, fun _ => ?_⟩
    · cases same
    · exact absurd ⟨value.toList, also⟩ nothing
    · exact ⟨chain, congrArg Except.error isCycle, isCircle⟩

/-- A layer with a value that asks for one name twice, and one whose two names ask for each other
in other spellings. -/
def circlingTree : LayerTree :=
  let source := Source.ofPairs "circling" [("a", "${b}${b}"), ("b", "${c.${d}:z}"), ("d", "x"),
    ("p.q", "-${P.r:y}"), ("p.r", "${missing:${s}}${e:${P_.-Q}}"), ("s", "t")]
  ⟨.node 0 0 .root (some [.node 1 0 (.initial source []) none none]) none, 2⟩

/-- Asking for a name twice makes no circle, and asking back in another spelling does. -/
theorem get_iff_means_circlingTree :
    (overTree circlingTree none .active).raw? "a" = some "${b}${b}" ∧
    (overTree circlingTree none .active).raw? "p.q" = some "-${P.r:y}" ∧
    Means (overTree circlingTree none .active).raw? "${b}${b}".toList "zz".toList ∧
    ∃ chain, (overTree circlingTree none .active).get "p.q" = .error (.cycle chain) ∧
      IsCircle (overTree circlingTree none .active).raw? chain ∧
      chain = ["p.q", "P.r", "P_.-Q"] := by
  have acyclic : (overTree circlingTree none .active).raw? "a" = some "${b}${b}" := by
    decide +kernel
  have circling : (overTree circlingTree none .active).raw? "p.q" = some "-${P.r:y}" := by
    decide +kernel
  have value : (overTree circlingTree none .active).get "a" = .ok (some "zz") :=
    get_of_getWithin (by decide +kernel)
  have failure : (overTree circlingTree none .active).get "p.q" =
      .error (.cycle ["p.q", "P.r", "P_.-Q"]) :=
    get_of_getWithin (by decide +kernel)
  have valued := get_iff_means circlingTree none true "a" _ acyclic
  have failing := get_iff_means circlingTree none true "p.q" _ circling
  have nothing : ¬ ∃ value,
      Means (overTree circlingTree none .active).raw? "-${P.r:y}".toList value := by
    rintro ⟨value, means⟩
    rw [← String.toList_ofList (l := value)] at means
    cases failure.symm.trans ((failing.1 _).mpr means)
  obtain ⟨chain, failed, isCircle⟩ := failing.2 nothing
  cases failure.symm.trans failed
  exact ⟨acyclic, circling, (valued.1 "zz").mp value, _, failed, isCircle, rfl⟩

end Lookup

end LayeredConfig
