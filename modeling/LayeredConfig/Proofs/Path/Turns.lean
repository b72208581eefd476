/-
This file says where a path leads, as far as its text tells.

The turns of a path are its names and its `..`, without what counts for nothing. To join two paths
is to take the turns of one after those of the other, and the parent of a path takes all of its
turns but the last one. Taking `..` away is a walk with a stack of names, so it may be done piece by
piece, and what it leaves are names that need no walk any more.
-/

import LayeredConfig.Path.Resolution
import LayeredConfig.Proofs.Text.Cutting

namespace LayeredConfig

open Text

namespace Path

/-- A piece that is a name, and no dots. -/
structure IsName (piece : List Char) : Prop where
  filled : piece ≠ []
  whole : '/' ∉ piece
  notDot : piece ≠ ['.']
  notDots : piece ≠ ['.', '.']

/-! ### Turns -/

/-- The names and `..` of a path. -/
def turns (path : List Char) : List Part :=
  innerParts (cutChars '/' path)

theorem innerParts_append (first second : List (List Char)) :
    innerParts (first ++ second) = innerParts first ++ innerParts second := by
  rw [innerParts, List.filter_append, List.map_append]
  rfl

theorem turns_append (first second : List Char) :
    turns (first ++ '/' :: second) = turns first ++ turns second := by
  rw [turns, cutChars_append, innerParts_append]
  rfl

theorem turns_nil : turns [] = [] := rfl

theorem turns_slash (path : List Char) : turns (path ++ ['/']) = turns path := by
  rw [turns_append, turns_nil, List.append_nil]

theorem innerParts_cons {piece : List Char} (filled : piece ≠ []) (notDot : piece ≠ ['.'])
    (pieces : List (List Char)) :
    innerParts (piece :: pieces) = Part.ofPiece piece :: innerParts pieces := by
  have counts : (!piece.isEmpty && piece != ['.']) = true := by
    simp [filled, notDot]
  rw [innerParts, List.filter_cons, if_pos counts]
  rfl

theorem innerParts_of_isName {piece : List Char} (isName : IsName piece) :
    innerParts [piece] = [.name piece] := by
  rw [innerParts_cons isName.filled isName.notDot, Part.ofPiece, if_neg isName.notDot,
    if_neg isName.notDots]
  rfl

theorem innerParts_of_name {piece : List Char} (isName : IsName piece)
    (pieces : List (List Char)) : innerParts (piece :: pieces) = .name piece :: innerParts pieces :=
  (innerParts_append [piece] pieces).trans (by rw [innerParts_of_isName isName]; rfl)

/-- The names among the turns are names. -/
theorem isName_of_mem_turns {path piece : List Char} (member : .name piece ∈ turns path) :
    IsName piece := by
  obtain ⟨other, kept, isPart⟩ := List.mem_map.mp member
  obtain ⟨isPiece, counts⟩ := List.mem_filter.mp kept
  rw [Part.ofPiece] at isPart
  split at isPart
  · cases isPart
  · next notDot =>
    split at isPart
    · cases isPart
    · next notDots =>
      obtain rfl := Part.name.inj isPart
      rw [Bool.and_eq_true, Bool.not_eq_true', List.isEmpty_eq_false_iff] at counts
      exact ⟨counts.1, not_mem_of_mem_cutChars isPiece, notDot, notDots⟩

/-! ### Taking `..` away -/

theorem reduce_append (names : List (List Char)) (first second : List Part) :
    reduce names (first ++ second) = (reduce names first).bind (reduce · second) := by
  fun_induction reduce names first with
  | case1 => rfl
  | case2 _ _ _ inductionHypothesis | case3 _ _ inductionHypothesis
  | case4 _ _ inductionHypothesis => exact inductionHypothesis
  | case5 => rfl
  | case6 _ _ _ inductionHypothesis => exact inductionHypothesis

/-- Only the turns of a path count. -/
theorem reduce_parts (names : List (List Char)) (path : String) :
    reduce names (parts path) = reduce names (turns path.toList) := by
  rw [parts, turns]
  split
  · next none =>
    rw [none]
    rfl
  · next empty =>
    rw [empty]
    rfl
  · next pieces _ split =>
    rw [split]
    rfl
  · next piece pieces _ filled split =>
    rw [split]
    by_cases isDot : piece = ['.']
    · rw [isDot]
      rfl
    · rw [innerParts_cons filled isDot]

/-- Names that are there already do not keep others from being there. -/
theorem reduce_append_names {names others result : List (List Char)} {parts : List Part}
    (reduced : reduce names parts = some result) :
    reduce (names ++ others) parts = some (result ++ others) := by
  fun_induction reduce names parts with
  | case1 =>
    cases reduced
    rfl
  | case2 _ _ _ inductionHypothesis | case3 _ _ inductionHypothesis
  | case4 _ _ inductionHypothesis => exact inductionHypothesis reduced
  | case5 => cases reduced
  | case6 _ _ _ inductionHypothesis => exact inductionHypothesis reduced

theorem reduce_names (names pieces : List (List Char)) :
    reduce names (pieces.map Part.name) = some (pieces.reverse ++ names) := by
  induction pieces generalizing names with
  | nil => rfl
  | cons piece rest inductionHypothesis =>
    rw [List.map_cons, reduce, inductionHypothesis, List.reverse_cons, List.append_assoc]
    rfl

/-- What remains was there, or is a name on the way. -/
theorem mem_of_reduce {names result : List (List Char)} {parts : List Part} {piece : List Char}
    (reduced : reduce names parts = some result) (member : piece ∈ result) :
    piece ∈ names ∨ .name piece ∈ parts := by
  fun_induction reduce names parts with
  | case1 =>
    cases reduced
    exact .inl member
  | case2 names text rest inductionHypothesis =>
    rcases inductionHypothesis reduced with wasThere | onWay
    · rcases List.mem_cons.mp wasThere with rfl | wasThere
      · exact .inr List.mem_cons_self
      · exact .inl wasThere
    · exact .inr (List.mem_cons_of_mem _ onWay)
  | case3 _ _ inductionHypothesis | case4 _ _ inductionHypothesis =>
    exact (inductionHypothesis reduced).imp_right (List.mem_cons_of_mem _)
  | case5 => cases reduced
  | case6 name names rest inductionHypothesis =>
    exact (inductionHypothesis reduced).imp (List.mem_cons_of_mem _) (List.mem_cons_of_mem _)

theorem isName_of_reduce {path : List Char} {result : List (List Char)}
    (reduced : reduce [] (turns path) = some result) : ∀ piece ∈ result, IsName piece :=
  fun _ member => isName_of_mem_turns
    ((mem_of_reduce reduced member).resolve_left List.not_mem_nil)

/-- What remains, the first one first, are names. -/
theorem areNames_of_reduce {path : List Char} {result : List (List Char)}
    (reduced : reduce [] (turns path) = some result) : ∀ name ∈ result.reverse, IsName name :=
  fun name member => isName_of_reduce reduced name (List.mem_reverse.mp member)

end Path

end LayeredConfig
