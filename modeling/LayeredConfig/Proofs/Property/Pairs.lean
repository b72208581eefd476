/-
This file says what a source of pairs holds.

Pairs are set one after the other, so a source of pairs has all their keys and nothing that no pair
has. Its view takes spellings of one name for the same, and asked for the name of a pair, it answers
the value of a pair of that name: not of any other, and never nothing.
-/

import LayeredConfig.Property.View

namespace LayeredConfig

/-! ### Views -/

namespace View

section Entries

variable {name : String} {seen : List String} {entries : List (String × String)}

theorem mem_of_mem_firstOfEach {entry : String × String}
    (member : entry ∈ firstOfEach seen entries) : entry ∈ entries := by
  induction entries generalizing seen with
  | nil => cases member
  | cons first rest inductionHypothesis =>
    rw [firstOfEach] at member
    split at member
    · exact List.mem_cons_of_mem _ (inductionHypothesis member)
    · rcases List.mem_cons.mp member with rfl | inRest
      · exact List.mem_cons_self
      · exact List.mem_cons_of_mem _ (inductionHypothesis inRest)

/-- The first pair of a name is the pair that a search for the name comes to. -/
theorem lookup_firstOfEach (fresh : name ∉ seen) :
    (firstOfEach seen entries).lookup name = entries.lookup name := by
  induction entries generalizing seen with
  | nil => rfl
  | cons first rest inductionHypothesis =>
    obtain ⟨key, value⟩ := first
    rw [firstOfEach, List.lookup_cons]
    by_cases same : name = key
    · subst same
      rw [if_neg fun contained => fresh (List.contains_iff_mem.mp contained), List.lookup_cons,
        beq_self_eq_true]
    · rw [beq_eq_false_iff_ne.mpr same]
      split
      · exact inductionHypothesis fresh
      · rw [List.lookup_cons, beq_eq_false_iff_ne.mpr same]
        exact inductionHypothesis fun inSeen => (List.mem_cons.mp inSeen).elim same fresh

theorem get?_ofEntries (entries : List (String × String)) (name : String) :
    (ofEntries entries).get? name =
      (entries.map fun (key, value) => (canonical key, value)).lookup (canonical name) :=
  lookup_firstOfEach List.not_mem_nil

/-- The view answers for a name the value of an entry of that name. -/
theorem entry_of_get? {value : String} (answered : (ofEntries entries).get? name = some value) :
    ∃ key, (key, value) ∈ entries ∧ canonical key = canonical name := by
  rw [get?_ofEntries] at answered
  obtain ⟨⟨key, held⟩, member, same⟩ := List.mem_map.mp (mem_of_lookup answered)
  obtain ⟨isName, rfl⟩ := Prod.mk.inj same
  exact ⟨key, member, isName⟩

theorem get?_ne_none {key value : String} (member : (key, value) ∈ entries) :
    (ofEntries entries).get? key ≠ none := by
  rw [get?_ofEntries]
  intro unanswered
  have differs := List.lookup_eq_none_iff.mp unanswered _ (List.mem_map_of_mem member)
  rw [bne_self_eq_false] at differs
  cases differs

/-- A view has no names but those of its entries. -/
theorem key_of_mem_names (member : name ∈ (ofEntries entries).names) :
    ∃ entry ∈ entries, canonical entry.1 = name := by
  obtain ⟨held, inValues, rfl⟩ := List.mem_map.mp member
  obtain ⟨entry, inEntries, rfl⟩ := List.mem_map.mp (mem_of_mem_firstOfEach inValues)
  exact ⟨entry, inEntries, rfl⟩

end Entries

/-- Whether a key spells a name, or an element of a list of that name. -/
def declaredBy (name key : String) : Bool :=
  canonical key == canonical name || isElementOf (canonical name) (canonical key)

/-- A view declares no name that none of its entries spells. -/
theorem not_declares {entries : List (String × String)} {name : String}
    (unspelled : ∀ entry ∈ entries, declaredBy name entry.1 = false) :
    (ofEntries entries).declares name = false := by
  rw [declares, Bool.or_eq_false_iff]
  constructor
  · rw [contains]
    cases answered : (ofEntries entries).get? name with
    | none => rfl
    | some value =>
      obtain ⟨key, member, isName⟩ := entry_of_get? answered
      have differs := (Bool.or_eq_false_iff.mp (unspelled _ member)).1
      exact absurd isName (beq_eq_false_iff_ne.mp differs)
  · rw [hasElements, List.any_eq_false]
    intro key isKey isElement
    obtain ⟨entry, member, rfl⟩ := key_of_mem_names isKey
    rw [(Bool.or_eq_false_iff.mp (unspelled _ member)).2] at isElement
    cases isElement

end View

/-! ### Pairs -/

namespace Source

theorem mem_of_mem_put {key value : String} {entry : String × String}
    {entries : List (String × String)} (member : entry ∈ put key value entries) :
    entry = (key, value) ∨ entry ∈ entries := by
  induction entries with
  | nil => exact .inl (List.mem_singleton.mp member)
  | cons first rest inductionHypothesis =>
    rw [put] at member
    split at member
    · exact (List.mem_cons.mp member).imp_right (List.mem_cons_of_mem _)
    · rcases List.mem_cons.mp member with rfl | inRest
      · exact .inr List.mem_cons_self
      · exact (inductionHypothesis inRest).imp_right (List.mem_cons_of_mem _)

/-- To set a key keeps all others. -/
theorem mem_keys_put {key value other : String} {entries : List (String × String)}
    (member : other = key ∨ other ∈ entries.map Prod.fst) :
    other ∈ (put key value entries).map Prod.fst := by
  induction entries with
  | nil => exact List.mem_singleton.mpr (member.resolve_right List.not_mem_nil)
  | cons first rest inductionHypothesis =>
    rw [put]
    rw [List.map_cons, List.mem_cons] at member
    split
    · next same =>
      rw [same, ← or_assoc, or_self] at member
      exact List.mem_cons.mpr member
    · exact List.mem_cons.mpr ((or_left_comm.mp member).imp_right inductionHypothesis)

section Pairs

variable (name : String) {pairs : List (String × String)}

/-- A source of pairs has no entry that is none of the pairs. -/
theorem pair_of_mem_entries {entry : String × String}
    (member : entry ∈ (ofPairs name pairs).entries) : entry ∈ pairs := by
  have added (source : Source) (pairs : List (String × String))
      (member : entry ∈ (pairs.foldl (fun source pair => source.insert pair.1 pair.2)
        source).entries) : entry ∈ source.entries ∨ entry ∈ pairs := by
    induction pairs generalizing source with
    | nil => exact .inl member
    | cons pair rest inductionHypothesis =>
      rcases inductionHypothesis _ member with inserted | inRest
      · exact (mem_of_mem_put inserted).symm.imp_right fun same => List.mem_cons.mpr (.inl same)
      · exact .inr (List.mem_cons_of_mem _ inRest)
  exact (added (empty name) pairs member).resolve_left List.not_mem_nil

/-- A source of pairs has all their keys. -/
theorem key_mem_entries {key value : String} (member : (key, value) ∈ pairs) :
    key ∈ (ofPairs name pairs).entries.map Prod.fst := by
  have added (source : Source) (pairs : List (String × String))
      (member : key ∈ source.entries.map Prod.fst ∨ key ∈ pairs.map Prod.fst) :
      key ∈ (pairs.foldl (fun source pair => source.insert pair.1 pair.2)
        source).entries.map Prod.fst := by
    induction pairs generalizing source with
    | nil => exact member.resolve_right List.not_mem_nil
    | cons pair rest inductionHypothesis =>
      refine inductionHypothesis (source.insert pair.1 pair.2) ?_
      rw [List.map_cons, List.mem_cons, ← or_assoc] at member
      exact member.imp_left fun earlier => mem_keys_put earlier.symm
  exact added (empty name) pairs (.inr (List.mem_map_of_mem member))

/-- Asked for the name of a pair, the source answers the value of a pair of that name. -/
theorem get?_of_pair {key value : String} (member : (key, value) ∈ pairs) :
    ∃ held ∈ pairs, canonical held.1 = canonical key ∧
      (ofPairs name pairs).view.get? key = some held.2 := by
  obtain ⟨⟨_, written⟩, isEntry, rfl⟩ := List.mem_map.mp (key_mem_entries name member)
  obtain ⟨answer, answered⟩ := Option.ne_none_iff_exists'.mp (View.get?_ne_none isEntry)
  obtain ⟨other, inEntries, isName⟩ := View.entry_of_get? answered
  exact ⟨_, pair_of_mem_entries name inEntries, isName, answered⟩

theorem not_declares_ofPairs {property : String}
    (unspelled : ∀ pair ∈ pairs, View.declaredBy property pair.1 = false) :
    (ofPairs name pairs).view.declares property = false :=
  View.not_declares fun _ member => unspelled _ (pair_of_mem_entries name member)

end Pairs

end Source

end LayeredConfig
