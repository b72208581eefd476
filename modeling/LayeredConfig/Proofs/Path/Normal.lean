/-
This file defines the normal form of absolute paths: names, with one slash before each of them.

To take the dots of an absolute path away is to bring it into normal form, and a path in normal form
stays as it is; so two normal paths that mean the same are the same text. The file of a name in a
normal directory has a normal path, and so has the file beside another one.
-/

import LayeredConfig.Proofs.Path.Parent

namespace LayeredConfig.Path

open Text

/-- An absolute path of names, with one slash before each of them. -/
def Normal (path : String) : Prop :=
  ∃ names : List (List Char), (∀ name ∈ names, IsName name) ∧ path = ofNames true names

namespace Normal

variable {path : String}

theorem absolute (normal : Normal path) : isAbsolute path = true := by
  obtain ⟨names, _, rfl⟩ := normal
  exact isAbsolute_ofNames names

/-- A normal path is left as it is. -/
theorem resolveDots_eq (normal : Normal path) : resolveDots path = .ok path := by
  obtain ⟨names, areNames, rfl⟩ := normal
  refine resolveDots_eq_ok.mpr ⟨names.reverse, reduce_ofNames areNames true, ?_⟩
  rw [isAbsolute_ofNames, List.reverse_reverse]

end Normal

/-! ### Coming to the normal form -/

theorem normal_of_resolveDots {path resolved : String} (absolute : isAbsolute path = true)
    (isResolved : resolveDots path = .ok resolved) : Normal resolved := by
  obtain ⟨names, reduced, rfl⟩ := resolveDots_eq_ok.mp isResolved
  exact ⟨names.reverse, areNames_of_reduce reduced, by rw [absolute]⟩

/-- Whatever is read from an absolute directory has a normal path. -/
theorem normal_of_absolutize {path base resolved : String} (absolute : isAbsolute base = true)
    (isResolved : absolutize path base = .ok resolved) : Normal resolved := by
  rw [absolutize_eq] at isResolved
  exact normal_of_resolveDots (isAbsolute_join absolute path) isResolved

/-! ### Names at the end of a path -/

/-- Pieces with a slash before each are the pieces with slashes between, behind one slash. -/
theorem flatMap_slash {pieces : List (List Char)} (filled : pieces ≠ []) :
    pieces.flatMap ('/' :: ·) = '/' :: ['/'].intercalate pieces := by
  induction pieces with
  | nil => exact absurd rfl filled
  | cons first rest inductionHypothesis =>
    cases rest with
    | nil =>
      rw [List.intercalate_singleton, List.flatMap_singleton]
    | cons second others =>
      rw [List.intercalate_cons_cons, List.flatMap_cons, inductionHypothesis (List.cons_ne_nil _ _),
        List.append_assoc]
      rfl

section Names

variable {names : List (List Char)} {name : List Char}

/-- Behind the last name of a path there is nothing to drop. -/
theorem dropIdle_of_isName (isName : IsName name) (rest : List Char) :
    dropIdle (name.reverse ++ rest) = name.reverse ++ rest := by
  obtain ⟨c, others, backwards⟩ := List.exists_cons_of_ne_nil
    (fun none => isName.filled (List.reverse_eq_nil_iff.mp none))
  have whole : '/' ∉ c :: others := fun member =>
    isName.whole (List.mem_reverse.mp (backwards ▸ member))
  rw [backwards]
  unfold dropIdle
  split
  · next same =>
    obtain ⟨rfl, _⟩ := List.cons.inj same
    exact absurd List.mem_cons_self whole
  · next same =>
    obtain rfl := (List.cons.inj same).1
    cases others with
    | nil => exact absurd (List.reverse_eq_iff.mp backwards) isName.notDot
    | cons d _ =>
      obtain ⟨rfl, _⟩ := List.cons.inj (List.cons.inj same).2
      exact absurd (List.mem_cons_of_mem _ List.mem_cons_self) whole
  · rfl

/-- One more name stands behind a slash, unless it is the first one. -/
theorem toList_ofNames_concat (absolute : Bool) (names : List (List Char)) (name : List Char) :
    (ofNames absolute (names ++ [name])).toList =
      (ofNames absolute names).toList ++ if names = [] then name else '/' :: name := by
  rw [toList_ofNames, toList_ofNames, List.append_assoc]
  refine congrArg _ ?_
  split_ifs with none
  · rw [none]
    exact List.intercalate_singleton
  · have spelled :=
      flatMap_slash (List.append_ne_nil_of_right_ne_nil names (List.cons_ne_nil name []))
    rw [List.flatMap_append, List.flatMap_singleton, flatMap_slash none] at spelled
    exact (List.cons.inj spelled).2.symm

/-- A path of some names ends with the last one of them. -/
theorem ends_of_filled (absolute : Bool) (filled : names ≠ []) :
    ∃ last ∈ names, ∃ before, (ofNames absolute names).toList.reverse = last.reverse ++ before := by
  obtain ⟨front, last, rfl⟩ := (List.eq_nil_or_concat' names).resolve_left filled
  refine ⟨last, List.mem_append_right _ List.mem_cons_self, ?_⟩
  rw [toList_ofNames_concat, List.reverse_append]
  split_ifs
  · exact ⟨_, rfl⟩
  · exact ⟨_, by rw [List.reverse_cons, List.append_assoc]⟩

variable {absolute : Bool}

theorem dropIdle_slash (areNames : ∀ other ∈ names, IsName other) (filled : names ≠ []) :
    dropIdle ('/' :: (ofNames absolute names).toList.reverse) =
      (ofNames absolute names).toList.reverse := by
  obtain ⟨last, isLast, before, ends⟩ := ends_of_filled absolute filled
  obtain ⟨c, others, backwards⟩ := List.exists_cons_of_ne_nil
    (fun none => (areNames last isLast).filled (List.reverse_eq_nil_iff.mp none))
  rw [ends]
  refine Eq.trans ?_ (dropIdle_of_isName (areNames last isLast) before)
  rw [backwards]
  rfl

theorem splitLast_ofNames (absolute : Bool) (areNames : ∀ other ∈ names, IsName other)
    (isName : IsName name) :
    splitLast (ofNames absolute (names ++ [name])) = (name, (ofNames absolute names).toList) := by
  have passes : ∀ c ∈ name.reverse, decide (c ≠ '/') = true := fun c member =>
    decide_eq_true fun isSlash => isName.whole (isSlash ▸ List.mem_reverse.mp member)
  rw [splitLast, toList_ofNames_concat, List.reverse_append]
  split_ifs with none
  · rw [none, dropIdle_of_isName isName, List.takeWhile_append_of_pos passes,
      List.dropWhile_append_of_pos passes, toList_ofNames]
    cases absolute <;> simp [dropIdle]
  · rw [List.reverse_cons, List.append_assoc, dropIdle_of_isName isName,
      List.takeWhile_append_of_pos passes, List.dropWhile_append_of_pos passes,
      List.singleton_append, List.takeWhile_cons_of_neg (by decide),
      List.dropWhile_cons_of_neg (by decide), List.append_nil, List.reverse_reverse,
      dropIdle_slash areNames none, List.reverse_reverse]

theorem parent_ofNames (areNames : ∀ other ∈ names, IsName other) (isName : IsName name) :
    parent? (ofNames absolute (names ++ [name])) = some (ofNames absolute names) := by
  have split := splitLast_ofNames absolute areNames isName
  unfold parent?
  rw [split]
  split
  · next same => exact absurd (Prod.mk.inj same).1 isName.filled
  · next same =>
    rw [← (Prod.mk.inj same).2, String.ofList_toList]

theorem fileName_ofNames (areNames : ∀ other ∈ names, IsName other) (isName : IsName name) :
    fileName? (ofNames absolute (names ++ [name])) = some (String.ofList name) := by
  have split := splitLast_ofNames absolute areNames isName
  unfold fileName?
  rw [split]
  split
  · next same => exact absurd (Prod.mk.inj same).1 isName.filled
  · next same =>
    rw [← (Prod.mk.inj same).1, Part.ofPiece, if_neg isName.notDot, if_neg isName.notDots]

theorem isAbsolute_of_isName {name : String} (isName : IsName name.toList) :
    isAbsolute name = false := by
  rw [← Bool.not_eq_true, isAbsolute_iff]
  exact fun isSlash => isName.whole (List.mem_of_head? isSlash)

theorem join_ofNames (areNames : ∀ other ∈ names, IsName other) {name : String}
    (isName : IsName name.toList) :
    join (ofNames absolute names) name = ofNames absolute (names ++ [name.toList]) := by
  have relative := isAbsolute_of_isName isName
  refine String.toList_injective ?_
  rw [toList_ofNames_concat]
  by_cases none : names = []
  · rw [none, join, relative, if_pos rfl]
    cases absolute with
    | false =>
      rw [if_pos (by decide)]
      rfl
    | true =>
      rw [if_neg (by decide), if_pos (by decide), String.toList_append]
  · obtain ⟨last, isLast, before, ends⟩ := ends_of_filled absolute none
    have isName := areNames last isLast
    have unslashed : (ofNames absolute names).toList.getLast? ≠ some '/' := by
      rw [← List.head?_reverse, ends,
        List.head?_append_of_ne_nil _ (mt List.reverse_eq_nil_iff.mp isName.filled),
        List.head?_reverse]
      exact fun isSlash => isName.whole (List.mem_of_getLast? isSlash)
    rw [join, relative, Bool.false_or,
      if_neg (by simp [ofNames_ne_empty areNames none absolute]), if_neg unslashed, if_neg none,
      String.toList_append, String.toList_append, List.append_assoc]
    rfl

end Names

/-! ### Files of a normal directory -/

theorem Normal.join {directory name : String} (normal : Normal directory)
    (isName : IsName name.toList) : Normal (Path.join directory name) := by
  obtain ⟨names, areNames, rfl⟩ := normal
  refine ⟨names ++ [name.toList], fun other member => ?_, join_ofNames areNames isName⟩
  rcases List.mem_append.mp member with isOther | isLast
  · exact areNames other isOther
  · exact List.mem_singleton.mp isLast ▸ isName

/-- The file beside another one has a normal path too. -/
theorem Normal.withFileName {path name other : String} (normal : Normal path)
    (hasName : fileName? path = some other) (isName : IsName name.toList) :
    Normal (Path.withFileName path name) := by
  obtain ⟨names, areNames, rfl⟩ := normal
  rcases List.eq_nil_or_concat' names with rfl | ⟨front, last, rfl⟩
  · cases hasName
  · have isLast := areNames last (List.mem_append_right _ List.mem_cons_self)
    have inFront : ∀ name ∈ front, IsName name := fun name member =>
      areNames name (List.mem_append_left _ member)
    rw [Path.withFileName, fileName_ofNames inFront isLast, parent_ofNames inFront isLast]
    exact Normal.join ⟨front, inFront, rfl⟩ isName

end LayeredConfig.Path
