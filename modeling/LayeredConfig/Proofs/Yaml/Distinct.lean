/-
This file says that a value which is read has no mapping with a key twice.

The keys of a mapping are compared once all its children are read, each key with those before it.
What an alias stands for is read again at every place, and so are its mappings checked again.
-/

import LayeredConfig.Proofs.Run
import LayeredConfig.Yaml.Value

namespace LayeredConfig.Yaml

namespace Value

/-- No mapping has a key twice, at any level. -/
inductive Distinct : Value → Prop where
  | scalar (scalar : Scalar) : Distinct (.scalar scalar)
  | sequence {items : List Value} (each : ∀ item ∈ items, Distinct item) :
      Distinct (.sequence items)
  | mapping {children : List Value}
      (keys : (pairs children).Pairwise fun earlier later => same later.1 earlier.1 = false)
      (each : ∀ child ∈ children, Distinct child) : Distinct (.mapping children)
  | tagged {tag : String} {content : Value} (inside : Distinct content) :
      Distinct (.tagged tag content)

theorem distinct_withTag {value : Value} (distinct : value.Distinct) (tag : Option Tag) :
    (withTag tag value).Distinct := by
  unfold withTag
  split
  · exact .tagged distinct
  · exact distinct

/-- Checked keys differ from each other and from those seen before. -/
theorem distinct_of_checkKeys {seen : List Value} {entries : List (Value × Value)}
    (checked : checkKeys seen entries = .ok ()) :
    entries.Pairwise (fun earlier later => same later.1 earlier.1 = false) ∧
      ∀ entry ∈ entries, ∀ other ∈ seen, same entry.1 other = false := by
  induction entries generalizing seen with
  | nil => exact ⟨.nil, List.forall_mem_nil _⟩
  | cons entry rest inductionHypothesis =>
    rw [checkKeys] at checked
    split at checked
    · cases checked
    · next isNew =>
      obtain ⟨restDistinct, differ⟩ := inductionHypothesis checked
      have differsHere : ∀ other ∈ seen, same entry.1 other = false := by
        intro other member
        rw [Bool.not_eq_true, List.any_eq_false] at isNew
        exact Bool.eq_false_iff.mpr (isNew other member)
      refine ⟨List.pairwise_cons.mpr ⟨fun other member => ?_, restDistinct⟩, ?_⟩
      · exact differ other member entry.1 List.mem_cons_self
      · exact List.forall_mem_cons.mpr ⟨differsHere, fun other member earlier inSeen =>
          differ other member earlier (List.mem_cons_of_mem _ inSeen)⟩

theorem pairs_flatMap (entries : List (Value × Value)) :
    pairs (entries.flatMap fun entry => [entry.1, entry.2]) = entries := by
  induction entries with
  | nil => rfl
  | cons entry rest inductionHypothesis =>
    rw [List.flatMap_cons]
    exact congrArg (entry :: ·) inductionHypothesis

/-- Checked entries make up a mapping without a key twice. -/
theorem distinct_of_entries {entries : List (Value × Value)}
    (checked : checkKeys [] entries = .ok ())
    (each : ∀ entry ∈ entries, entry.1.Distinct ∧ entry.2.Distinct) :
    (mapping (entries.flatMap fun entry => [entry.1, entry.2])).Distinct := by
  refine .mapping ?_ fun child member => ?_
  · rw [pairs_flatMap]
    exact (distinct_of_checkKeys checked).1
  · obtain ⟨entry, isEntry, isChild⟩ := List.mem_flatMap.mp member
    rcases List.mem_cons.mp isChild with rfl | isSecond
    · exact (each entry isEntry).1
    · rw [List.mem_singleton.mp isSecond]
      exact (each entry isEntry).2

/-! ### Reading -/

section Reading

variable {First Second : Type} {count after : Nat}

theorem run_bind_eq_ok {first : Reading First} {next : First → Reading Second} {result : Second} :
    (first >>= next).run count = .ok (result, after) ↔
      ∃ middle between, first.run count = .ok (middle, between) ∧
        (next middle).run between = .ok (result, after) := by
  rw [StateT.run_bind, bind_eq_ok, Prod.exists]

theorem run_lift_eq_ok {outcome : Except Fault First} {result : First} :
    (liftM outcome : Reading First).run count = .ok (result, after) ↔
      outcome = .ok result ∧ count = after := by
  cases outcome with
  | ok first =>
    refine ⟨fun same => ?_, ?_⟩
    · obtain ⟨rfl, rfl⟩ := Prod.mk.inj (Except.ok.inj same)
      exact ⟨rfl, rfl⟩
    · rintro ⟨same, rfl⟩
      rw [same]
      rfl
  | error fault => exact iff_of_false nofun fun same => by cases same.1

/-- Each result of reading one after the other is the result of reading one of them. -/
theorem exists_of_mapM {read : First → Reading Second} {inputs : List First}
    {results : List Second} (succeeded : (inputs.mapM read).run count = .ok (results, after)) :
    ∀ result ∈ results, ∃ input ∈ inputs, ∃ before after,
      (read input).run before = .ok (result, after) := by
  induction inputs generalizing count after results with
  | nil =>
    obtain ⟨rfl, -⟩ := Prod.mk.inj (Except.ok.inj succeeded)
    exact List.forall_mem_nil _
  | cons input rest inductionHypothesis =>
    rw [List.mapM_cons] at succeeded
    obtain ⟨first, _, isFirst, succeeded⟩ := run_bind_eq_ok.mp succeeded
    obtain ⟨others, _, areOthers, succeeded⟩ := run_bind_eq_ok.mp succeeded
    obtain ⟨rfl, -⟩ := Prod.mk.inj (Except.ok.inj succeeded)
    refine List.forall_mem_cons.mpr ⟨⟨input, List.mem_cons_self, _, _, isFirst⟩, ?_⟩
    intro result member
    obtain ⟨other, isInput, read⟩ := inductionHypothesis areOthers result member
    exact ⟨other, List.mem_cons_of_mem _ isInput, read⟩

end Reading

theorem distinct_of_readNode {document : Document} {depth count after : Nat} {node : LinkedNode}
    {value : Value} (read : (readNode document depth node).run count = .ok (value, after)) :
    value.Distinct := by
  induction depth generalizing node count value after with
  | zero =>
    rw [readNode] at read
    obtain ⟨followed, _, _, read⟩ := run_bind_eq_ok.mp read
    cases followed with
    | «alias» | sequence | mapping => cases read
    | scalar tag text isPlain =>
      obtain ⟨scalar, _, _, read⟩ := run_bind_eq_ok.mp read
      obtain ⟨rfl, -⟩ := Prod.mk.inj (Except.ok.inj read)
      exact distinct_withTag (.scalar scalar) tag
  | succ depth inductionHypothesis =>
    rw [readNode] at read
    obtain ⟨followed, _, _, read⟩ := run_bind_eq_ok.mp read
    cases followed with
    | «alias» => cases read
    | scalar tag text isPlain =>
      obtain ⟨scalar, _, _, read⟩ := run_bind_eq_ok.mp read
      obtain ⟨rfl, -⟩ := Prod.mk.inj (Except.ok.inj read)
      exact distinct_withTag (.scalar scalar) tag
    | sequence tag items =>
      obtain ⟨values, _, areValues, read⟩ := run_bind_eq_ok.mp read
      obtain ⟨rfl, -⟩ := Prod.mk.inj (Except.ok.inj read)
      refine distinct_withTag (.sequence fun value member => ?_) tag
      obtain ⟨_, _, _, _, isValue⟩ := exists_of_mapM areValues value member
      exact inductionHypothesis isValue
    | mapping tag children =>
      obtain ⟨entries, _, areEntries, read⟩ := run_bind_eq_ok.mp read
      obtain ⟨_, _, checked, read⟩ := run_bind_eq_ok.mp read
      obtain ⟨rfl, -⟩ := Prod.mk.inj (Except.ok.inj read)
      have each : ∀ entry ∈ entries, entry.1.Distinct ∧ entry.2.Distinct := by
        intro entry member
        obtain ⟨_, _, _, _, isEntry⟩ := exists_of_mapM areEntries entry member
        obtain ⟨key, _, isKey, isEntry⟩ := run_bind_eq_ok.mp isEntry
        obtain ⟨held, _, isHeld, isEntry⟩ := run_bind_eq_ok.mp isEntry
        obtain ⟨rfl, -⟩ := Prod.mk.inj (Except.ok.inj isEntry)
        exact ⟨inductionHypothesis isKey, inductionHypothesis isHeld⟩
      exact distinct_withTag (distinct_of_entries (run_lift_eq_ok.mp checked).1 each) tag

/-- The value of a document has no mapping with a key twice. -/
theorem distinct_of_ofDocument {document : Document} {value : Value}
    (read : ofDocument document = .ok value) : value.Distinct := by
  obtain ⟨⟨value, after⟩, isRead, rfl⟩ := map_eq_ok.mp read
  exact distinct_of_readNode isRead

end Value

end LayeredConfig.Yaml
