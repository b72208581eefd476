/-
This file says what a source of pairs holds, and in which order.

A pair whose key is there already changes the value in place, and any other pair goes to the end. So
each key stands where it first came, with the value that came last; and if no key comes twice, the
source holds the pairs as they are.
-/

import LayeredConfig.Proofs.Profile.Choice
import LayeredConfig.Proofs.Property.Indexing

namespace LayeredConfig

/-- Where no key comes twice, what stands with a key is what is found for it. -/
theorem lookup_eq_some_iff_mem {Key Item : Type} [BEq Key] [LawfulBEq Key]
    {entries : List (Key × Item)} (distinct : (entries.map Prod.fst).Nodup) {key : Key}
    {item : Item} : entries.lookup key = some item ↔ (key, item) ∈ entries := by
  induction entries with
  | nil => exact iff_of_false nofun List.not_mem_nil
  | cons first rest inductionHypothesis =>
    obtain ⟨other, held⟩ := first
    obtain ⟨notInRest, restDistinct⟩ := List.nodup_cons.mp distinct
    rw [List.lookup_cons, List.mem_cons, Prod.mk.injEq]
    cases isHere : key == other with
    | true =>
      obtain rfl := eq_of_beq isHere
      refine ⟨fun same => Or.inl ⟨rfl, (Option.some.inj same).symm⟩, ?_⟩
      rintro (⟨-, rfl⟩ | inRest)
      · rfl
      · exact absurd (List.mem_map_of_mem inRest) notInRest
    | false =>
      have differs : key ≠ other := fun same => by
        rw [same, beq_self_eq_true] at isHere
        cases isHere
      exact (inductionHypothesis restDistinct).trans
        (or_iff_right fun same => differs same.1).symm

namespace Source

/-! ### Setting one key -/

section Put

variable {key value : String} {entries : List (String × String)}

/-- A key that is there keeps its place, and a new one goes to the end. -/
theorem keys_put : (put key value entries).map Prod.fst =
    if key ∈ entries.map Prod.fst then entries.map Prod.fst
    else entries.map Prod.fst ++ [key] := by
  induction entries with
  | nil => rfl
  | cons first rest inductionHypothesis =>
    rw [put]
    by_cases same : first.1 = key
    · rw [if_pos same, if_pos (List.mem_map.mpr ⟨first, List.mem_cons_self, same⟩),
        List.map_cons, List.map_cons, same]
    · rw [if_neg same, List.map_cons, inductionHypothesis, List.map_cons]
      by_cases isThere : key ∈ rest.map Prod.fst
      · rw [if_pos isThere, if_pos (List.mem_cons_of_mem _ isThere)]
      · have isNew : key ∉ first.1 :: rest.map Prod.fst :=
          List.not_mem_cons_of_ne_of_not_mem (Ne.symm same) isThere
        rw [if_neg isThere, if_neg isNew, List.cons_append]

/-- To set a key changes its value and no other. -/
theorem lookup_put (name : String) :
    (put key value entries).lookup name =
      if name = key then some value else entries.lookup name := by
  induction entries with
  | nil =>
    rw [put, List.lookup_cons]
    by_cases same : name = key
    · rw [if_pos same, beq_iff_eq.mpr same]
    · rw [if_neg same, beq_eq_false_iff_ne.mpr same]
  | cons first rest inductionHypothesis =>
    obtain ⟨other, held⟩ := first
    rw [put]
    by_cases same : other = key
    · rw [if_pos same, List.lookup_cons, List.lookup_cons, same]
      by_cases isName : name = key
      · rw [if_pos isName, beq_iff_eq.mpr isName]
      · rw [if_neg isName, beq_eq_false_iff_ne.mpr isName]
    · rw [if_neg same, List.lookup_cons, List.lookup_cons, inductionHypothesis]
      by_cases isOther : name = other
      · have noKey : name ≠ key := fun isName => same (isOther.symm.trans isName)
        simp only [beq_iff_eq.mpr isOther, if_neg noKey]
      · rw [beq_eq_false_iff_ne.mpr isOther]

theorem put_of_fresh (fresh : key ∉ entries.map Prod.fst) :
    put key value entries = entries ++ [(key, value)] := by
  induction entries with
  | nil => rfl
  | cons first rest inductionHypothesis =>
    rw [List.map_cons, List.mem_cons, not_or] at fresh
    rw [put, if_neg (Ne.symm fresh.1), inductionHypothesis fresh.2, List.cons_append]

end Put

/-! ### Setting one after the other -/

section Pairs

variable (name : String) (pairs : List (String × String))

theorem ofPairs_concat (pair : String × String) :
    ofPairs name (pairs ++ [pair]) = (ofPairs name pairs).insert pair.1 pair.2 :=
  List.foldl_concat _ _ _ _

/-- The keys stand in the order in which they first come. -/
theorem keys_ofPairs : (ofPairs name pairs).keys = (pairs.map Prod.fst).eraseDups := by
  induction pairs using List.reverseRecOn with
  | nil => rfl
  | append_singleton pairs pair inductionHypothesis =>
    rw [ofPairs_concat, List.map_append, List.map_singleton, eraseDups_concat,
      ← inductionHypothesis]
    show (put pair.1 pair.2 (ofPairs name pairs).entries).map Prod.fst = _
    rw [keys_put]
    refine if_congr ?_ rfl rfl
    show pair.1 ∈ (ofPairs name pairs).keys ↔ _
    rw [inductionHypothesis, List.mem_eraseDups]

/-- A key has the value that comes last. -/
theorem get?_ofPairs (key : String) : (ofPairs name pairs).get? key = pairs.reverse.lookup key := by
  induction pairs using List.reverseRecOn with
  | nil => rfl
  | append_singleton pairs pair inductionHypothesis =>
    obtain ⟨other, value⟩ := pair
    rw [ofPairs_concat, List.reverse_append, List.reverse_singleton, List.singleton_append,
      List.lookup_cons, ← inductionHypothesis]
    show (put other value (ofPairs name pairs).entries).lookup key = _
    rw [lookup_put]
    by_cases same : key = other
    · rw [if_pos same, beq_iff_eq.mpr same]
    · rw [if_neg same, beq_eq_false_iff_ne.mpr same]
      rfl

/-- Pairs of which no two have one key are held as they are. -/
theorem entries_ofPairs {pairs : List (String × String)} (distinct : (pairs.map Prod.fst).Nodup) :
    (ofPairs name pairs).entries = pairs := by
  induction pairs using List.reverseRecOn with
  | nil => rfl
  | append_singleton pairs pair inductionHypothesis =>
    rw [List.map_append, List.map_singleton, List.nodup_append] at distinct
    obtain ⟨others, -, apart⟩ := distinct
    have isNew : pair.1 ∉ pairs.map Prod.fst :=
      fun isThere => apart pair.1 isThere pair.1 (List.mem_singleton_self _) rfl
    have held := inductionHypothesis others
    rw [ofPairs_concat, insert, held, put_of_fresh isNew]

end Pairs

/-! ### What is declared -/

end Source

end LayeredConfig
