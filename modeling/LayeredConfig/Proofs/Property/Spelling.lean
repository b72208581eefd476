/-
This file says which value a source of pairs answers with.

Two rules meet. A pair whose key is there already changes the value in place, so of equal keys the
last value counts, at the first place. Keys that differ and spell one name stay beside each other,
and of these the first one counts. So a name has the last value of the key that spells it first,
wherever the pairs of this key and of the others stand.
-/

import LayeredConfig.Proofs.Property.Settling

namespace LayeredConfig

/-! ### First spellings -/

/-- The first key of a list of pairs that spells a name. -/
def firstSpelling? (name : String) (pairs : List (String × String)) : Option String :=
  (pairs.map Prod.fst).find? fun key => canonical key = canonical name

/-- Repeated items do not matter to a search. -/
theorem find?_eraseDups (accepts : String → Bool) (items : List String) :
    items.eraseDups.find? accepts = items.find? accepts := by
  induction items using List.reverseRecOn with
  | nil => rfl
  | append_singleton items item inductionHypothesis =>
    rw [eraseDups_concat, List.find?_append, ← inductionHypothesis]
    split
    · next isThere =>
      cases isFound : items.eraseDups.find? accepts with
      | some found => rfl
      | none =>
        have refused := List.find?_eq_none.mp isFound item (List.mem_eraseDups.mpr isThere)
        rw [List.find?_singleton, if_neg refused]
        rfl
    · rw [List.find?_append]

/-- A view answers with the value that is found for the first spelling. -/
theorem View.get?_eq_firstSpelling (entries : List (String × String)) (name : String) :
    (ofEntries entries).get? name =
      (firstSpelling? name entries).bind fun key => entries.lookup key := by
  rw [get?_ofEntries, firstSpelling?]
  induction entries with
  | nil => rfl
  | cons first rest inductionHypothesis =>
    obtain ⟨key, value⟩ := first
    rw [List.map_cons, List.map_cons, List.lookup_cons, List.find?_cons]
    by_cases spells : canonical key = canonical name
    · rw [beq_iff_eq.mpr spells.symm, decide_eq_true spells]
      exact (List.lookup_cons_self).symm
    · rw [beq_eq_false_iff_ne.mpr (Ne.symm spells), decide_eq_false spells]
      refine inductionHypothesis.trans (Option.bind_congr fun other isFirst => ?_)
      -- The spelling that is found further on is another key than this one.
      have otherSpells : canonical other = canonical name := by
        simpa using List.find?_some isFirst
      have differs : other ≠ key := fun same => spells (same ▸ otherSpells)
      rw [List.lookup_cons, beq_eq_false_iff_ne.mpr differs]

namespace Source

/-- The value of the last pair with exactly this key. -/
def IsLast (pairs : List (String × String)) (key value : String) : Prop :=
  ∃ before after, pairs = before ++ (key, value) :: after ∧ key ∉ after.map Prod.fst

theorem isLast_of_lookup {pairs : List (String × String)} {key value : String}
    (found : pairs.reverse.lookup key = some value) : IsLast pairs key value := by
  obtain ⟨after, before, split, others⟩ := List.lookup_eq_some_iff.mp found
  refine ⟨before.reverse, after.reverse, ?_, fun isThere => ?_⟩
  · rw [List.reverse_eq_iff.mp split]
    simp
  · obtain ⟨pair, member, same⟩ := List.mem_map.mp isThere
    have differs := others pair (List.mem_reverse.mp member)
    rw [same, bne_self_eq_false] at differs
    cases differs

theorem exists_isLast {pairs : List (String × String)} {key : String}
    (isKey : key ∈ pairs.map Prod.fst) :
    ∃ value, IsLast pairs key value ∧ pairs.reverse.lookup key = some value := by
  obtain ⟨pair, member, rfl⟩ := List.mem_map.mp isKey
  cases isFound : pairs.reverse.lookup pair.1 with
  | some value => exact ⟨value, isLast_of_lookup isFound, rfl⟩
  | none =>
    have differs := List.lookup_eq_none_iff.mp isFound pair (List.mem_reverse.mpr member)
    rw [bne_self_eq_false] at differs
    cases differs

section Answers

variable (title : String) (pairs : List (String × String)) (name : String)

theorem firstSpelling?_ofPairs :
    firstSpelling? name (ofPairs title pairs).entries = firstSpelling? name pairs := by
  have keys := keys_ofPairs title pairs
  rw [firstSpelling?, firstSpelling?, ← find?_eraseDups _ (pairs.map Prod.fst), ← keys]
  rfl

theorem get?_view_ofPairs : (ofPairs title pairs).view.get? name =
    (firstSpelling? name pairs).bind fun key => pairs.reverse.lookup key := by
  rw [view, View.get?_eq_firstSpelling, firstSpelling?_ofPairs]
  exact Option.bind_congr fun key _ => get?_ofPairs title pairs key

/-- Asked for a name, a source of pairs answers with the last value of the key that spells the name
first, and with nothing if no key spells it. The source holds each of the keys once, in the order in
which they first come, with its last value. -/
theorem answers_first_spelling :
    (match firstSpelling? name pairs with
      | some key => ∃ value, IsLast pairs key value ∧
          (ofPairs title pairs).view.get? name = some value
      | none => (ofPairs title pairs).view.get? name = none) ∧
    FirstOccurrences (pairs.map Prod.fst) (ofPairs title pairs).keys ∧
    (ofPairs title pairs).entries.Forall fun entry => IsLast pairs entry.1 entry.2 := by
  have held : FirstOccurrences (pairs.map Prod.fst) (ofPairs title pairs).keys :=
    keys_ofPairs title pairs ▸ firstOccurrences_eraseDups _
  refine ⟨?_, held, List.forall_iff_forall_mem.mpr fun entry member => ?_⟩
  · rw [get?_view_ofPairs]
    cases isFirst : firstSpelling? name pairs with
    | none => rfl
    | some key =>
      obtain ⟨value, isLast, found⟩ := exists_isLast (List.mem_of_find?_eq_some isFirst)
      exact ⟨value, isLast, found⟩
  · refine isLast_of_lookup ?_
    rw [← get?_ofPairs title]
    exact (lookup_eq_some_iff_mem held.nodup).mpr member

/-- The key that spells the name first is set again behind another spelling. -/
example : (ofPairs "s" [("a-b", "1"), ("c", "2"), ("aB", "3"), ("a-b", "4")]).view.get? "a_b" =
    some "4" := by
  decide

end Answers

end Source

end LayeredConfig
