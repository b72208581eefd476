/-
This file says that lower case is lower case already: what a character becomes stays as it is.

The capitals of a run are displaced alike, so what they become lies at the same distances. That no
run has any of it among its capitals is a matter of where the two runs begin and end, or of the
distances where they interlock. So it is checked for every two runs, not for every character.
-/

import LayeredConfig.Text.Blank
import LayeredConfig.Text.LowerCase

namespace LayeredConfig.Text

namespace CaseRun

variable {run other : CaseRun} {code index : Nat}

/-- What the first capital of a run becomes. -/
def target (run : CaseRun) : Nat :=
  Int.toNat (run.first + run.shift)

theorem exists_index_of_covers (covered : run.covers code = true) :
    ∃ index < run.count, code = run.first + index * run.stride := by
  simp only [covers, Bool.and_eq_true, decide_eq_true_eq, beq_iff_eq] at covered
  obtain ⟨⟨least, below⟩, inStep⟩ := covered
  refine ⟨(code - run.first) / run.stride, ?_, ?_⟩
  · refine Nat.div_lt_of_lt_mul ?_
    rw [Nat.mul_comm]
    omega
  · rw [Nat.div_mul_cancel (Nat.dvd_of_mod_eq_zero inStep)]
    omega

/-- No capital of a run becomes one of the other run: what they become lies above its last capital,
below its first one, or between its capitals. -/
def clears (run other : CaseRun) : Bool :=
  Nat.blt (other.first + other.count * other.stride) (run.target + other.stride) ||
    Nat.blt (run.target + run.count * run.stride) (other.first + run.stride) ||
    decide (other.first ≤ run.target) && (run.target - other.first) % other.stride != 0 &&
      (run.stride == other.stride || run.count == 1)

theorem not_covers_of_clears (isClear : run.clears other = true) (inRun : index < run.count) :
    other.covers (run.target + index * run.stride) = false := by
  rw [← Bool.not_eq_true]
  intro covered
  obtain ⟨place, inOther, same⟩ := exists_index_of_covers covered
  have reaches : place * other.stride + other.stride ≤ other.count * other.stride := by
    rw [← Nat.succ_mul]
    exact Nat.mul_le_mul_right _ inOther
  have stays : index * run.stride + run.stride ≤ run.count * run.stride := by
    rw [← Nat.succ_mul]
    exact Nat.mul_le_mul_right _ inRun
  simp only [clears, Bool.or_eq_true, Bool.and_eq_true, Nat.blt_eq, decide_eq_true_eq,
    beq_iff_eq, bne_iff_ne] at isClear
  rcases isClear with (above | below) | ⟨⟨least, between⟩, sameStep⟩
  · omega
  · omega
  · -- Both runs go on in the same steps, so one target at a capital puts the first one at one too.
    have split : run.target - other.first + index * run.stride = place * other.stride := by
      omega
    refine between ?_
    rcases sameStep with steps | single
    · rw [steps] at split
      rw [← Nat.add_mul_mod_self_right _ index other.stride, split, Nat.mul_mod_left]
    · obtain rfl : index = 0 := by omega
      rw [← Nat.mul_mod_left place other.stride, ← split, Nat.zero_mul, Nat.add_zero]

/-- A run has no blanks, and what they become are characters that are no blanks either, and letters
if they are small ones. -/
def isSound (run : CaseRun) : Bool :=
  decide (0 ≤ run.first + run.shift) && (List.range run.count).all fun index =>
    let code := run.target + index * run.stride
    !isBlank (Char.ofNat (run.first + index * run.stride)) && !isBlank (Char.ofNat code) &&
      decide code.isValidChar && code != 0x130 &&
      (decide (0x80 ≤ code) || (Char.ofNat code).isLower)

end CaseRun

theorem caseRuns_sound : caseRuns.all CaseRun.isSound = true := by
  decide +kernel

theorem caseRuns_clear : caseRuns.all (fun run => caseRuns.all run.clears) = true := by
  decide +kernel

/-! ### Characters -/

/-- A character that lower case leaves alone, no blank, and below `0x80` a lower-case letter. -/
structure IsLower (c : Char) : Prop where
  same : lowerChar c = [c]
  filled : isBlank c = false
  letter : c.toNat < 0x80 → c.isLower = true

theorem lowerChar_of_isLower {c : Char} (small : c.toNat < 0x80) (letter : c.isLower = true) :
    lowerChar c = [c] := by
  have each : ∀ code < 0x80, (Char.ofNat code).isLower = true →
      lowerChar (Char.ofNat code) = [Char.ofNat code] := by
    decide +kernel
  rw [← Char.ofNat_toNat c] at letter ⊢
  exact each _ small letter

theorem lowerChar_of_small {c : Char} (small : c.toNat < 0x80) :
    lowerChar c = [c] ∨ isBlank c = false ∧ ∀ d ∈ lowerChar c,
      d.toNat < 0x80 ∧ isBlank d = false ∧ d.isLower = true := by
  have each : ∀ code < 0x80, lowerChar (Char.ofNat code) = [Char.ofNat code] ∨
      isBlank (Char.ofNat code) = false ∧ (lowerChar (Char.ofNat code)).all (fun d =>
        decide (d.toNat < 0x80) && !isBlank d && d.isLower) = true := by
    decide +kernel
  rw [← Char.ofNat_toNat c]
  simpa [and_assoc] using each _ small

/-- No run covers what a capital becomes. -/
theorem find?_target {run : CaseRun} (member : run ∈ caseRuns) {index : Nat}
    (inRun : index < run.count) :
    caseRuns.find? (·.covers (run.target + index * run.stride)) = none := by
  refine List.find?_eq_none.mpr fun other isOther => ?_
  have isClear := List.all_eq_true.mp (List.all_eq_true.mp caseRuns_clear run member) other isOther
  rw [CaseRun.not_covers_of_clears isClear inRun]
  exact Bool.false_ne_true

theorem toNat_ofNat {code : Nat} (isValid : code.isValidChar) : (Char.ofNat code).toNat = code := by
  rw [Char.ofNat, dif_pos isValid]
  rfl

/-- A capital of a run is no blank, and what it becomes is lower case. -/
theorem isLower_of_run {run : CaseRun} (member : run ∈ caseRuns) {index : Nat}
    (inRun : index < run.count) :
    isBlank (Char.ofNat (run.first + index * run.stride)) = false ∧
      IsLower (Char.ofNat (run.target + index * run.stride)) ∧
      ((run.first + index * run.stride : Nat) + run.shift).toNat =
        run.target + index * run.stride := by
  have isSound := List.all_eq_true.mp caseRuns_sound run member
  rw [CaseRun.isSound, Bool.and_eq_true, decide_eq_true_eq] at isSound
  have sound := List.all_eq_true.mp isSound.2 index (List.mem_range.mpr inRun)
  simp only [Bool.and_eq_true, Bool.not_eq_true', Bool.or_eq_true, decide_eq_true_eq,
    bne_iff_ne] at sound
  obtain ⟨⟨⟨⟨capital, filled⟩, isValid⟩, undotted⟩, letter⟩ := sound
  have isCode := toNat_ofNat isValid
  refine ⟨capital, ⟨?_, filled, fun small => ?_⟩, ?_⟩
  · by_cases small : run.target + index * run.stride < 0x80
    · exact lowerChar_of_isLower (isCode.symm ▸ small) (letter.resolve_left (Nat.not_le.mpr small))
    · have notDotted : Char.ofNat (run.target + index * run.stride) ≠ '\u0130' :=
        fun same => undotted (isCode.symm.trans (congrArg Char.toNat same))
      rw [lowerChar, isCode, if_neg small, if_neg notDotted, find?_target member inRun]
  · exact letter.resolve_left (Nat.not_le.mpr (isCode ▸ small))
  · rw [CaseRun.target]
    omega

theorem lowerChar_ne_nil (c : Char) : lowerChar c ≠ [] := by
  unfold lowerChar
  split
  · exact List.cons_ne_nil _ _
  · split
    · exact List.cons_ne_nil _ _
    · split <;> exact List.cons_ne_nil _ _

/-- Lower case leaves a character alone, or turns what is no blank into lower case. -/
theorem lowerChar_cases (c : Char) :
    lowerChar c = [c] ∨ isBlank c = false ∧ ∀ d ∈ lowerChar c, IsLower d := by
  by_cases small : c.toNat < 0x80
  · refine (lowerChar_of_small small).imp_right fun ⟨filled, lower⟩ => ⟨filled, fun d member => ?_⟩
    obtain ⟨alsoSmall, notBlank, letter⟩ := lower d member
    exact ⟨lowerChar_of_isLower alsoSmall letter, notBlank, fun _ => letter⟩
  by_cases dotted : c = '\u0130'
  · refine .inr ⟨by rw [dotted]; decide, fun d member => ?_⟩
    rw [dotted, show lowerChar '\u0130' = ['i', '\u0307'] by decide] at member
    rcases List.mem_cons.mp member with rfl | isMark
    · exact ⟨by decide, by decide, by decide⟩
    · rw [List.mem_singleton.mp isMark]
      exact ⟨by decide +kernel, by decide, by decide⟩
  rw [lowerChar, if_neg small, if_neg dotted]
  cases isRun : caseRuns.find? (·.covers c.toNat) with
  | none => exact .inl rfl
  | some run =>
    have covered : run.covers c.toNat = true := by
      simpa using List.find?_some isRun
    obtain ⟨index, inRun, isCapital⟩ := CaseRun.exists_index_of_covers covered
    obtain ⟨filled, lower, same⟩ := isLower_of_run (List.mem_of_find?_eq_some isRun) inRun
    rw [← isCapital, Char.ofNat_toNat] at filled
    refine .inr ⟨filled, fun d member => ?_⟩
    rw [List.mem_singleton.mp member, isCapital, same]
    exact lower

end LayeredConfig.Text
