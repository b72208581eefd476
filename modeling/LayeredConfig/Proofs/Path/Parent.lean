/-
This file says what joining a path to a directory, taking its parent and taking its dots away do to
its turns and to its pieces.

The parent of a path is found from its end, on the text backwards. What is passed over there on the
way to the last piece and behind it, slashes and single dots, makes no turn. So a path that has no
parent makes no turn at all, and otherwise the turns of the parent and of the last piece are those
of the path.
-/

import LayeredConfig.Proofs.Path.Turns
import LayeredConfig.Proofs.Run

namespace LayeredConfig.Path

open Text

theorem isAbsolute_iff {path : String} : isAbsolute path = true ↔ path.toList.head? = some '/' :=
  beq_iff_eq

/-! ### Joining -/

/-- To join is to put the path behind the directory and one slash, unless there is no directory. -/
theorem join_cases (directory : String) {path : String} (relative : isAbsolute path = false) :
    directory = "" ∧ join directory path = path ∨
      ∃ front, (directory.toList = front ∨ directory.toList = front ++ ['/']) ∧
        (join directory path).toList = front ++ '/' :: path.toList := by
  rw [join, relative, Bool.false_or]
  by_cases none : directory = ""
  · rw [if_pos (decide_eq_true none)]
    exact .inl ⟨none, rfl⟩
  · rw [if_neg (by simp [none])]
    split
    · next closed =>
      obtain ⟨front, split⟩ := List.getLast?_eq_some_iff.mp closed
      refine .inr ⟨front, .inr split, ?_⟩
      rw [String.toList_append, split, List.append_assoc]
      rfl
    · refine .inr ⟨directory.toList, .inl rfl, ?_⟩
      rw [String.toList_append, String.toList_append, List.append_assoc]
      rfl

theorem turns_join {directory path : String} (relative : isAbsolute path = false) :
    turns (join directory path).toList = turns directory.toList ++ turns path.toList := by
  rcases join_cases directory relative with ⟨none, same⟩ | ⟨front, closed, same⟩
  · rw [same, none]
    rfl
  · rw [same, turns_append]
    rcases closed with same | same
    · rw [same]
    · rw [same, turns_slash]

/-- A path is walked where the walk through the directory leads. -/
theorem reduce_join {directory path : String} (relative : isAbsolute path = false) :
    reduce [] (turns (join directory path).toList) =
      (reduce [] (turns directory.toList)).bind fun names => reduce names (turns path.toList) := by
  rw [turns_join relative, reduce_append]

/-- To make a path absolute is to join it to the base and take the dots away. -/
theorem absolutize_eq (path base : String) :
    absolutize path base = resolveDots (join base path) := by
  rw [absolutize]
  split
  · next absolute =>
    rw [join, absolute]
    rfl
  · rfl

theorem isAbsolute_join {directory : String} (absolute : isAbsolute directory = true)
    (path : String) : isAbsolute (join directory path) = true := by
  by_cases isAbsolutePath : isAbsolute path = true
  · rwa [join, isAbsolutePath, Bool.true_or, if_pos rfl]
  · rw [isAbsolute_iff] at absolute ⊢
    rcases join_cases directory (Bool.not_eq_true _ ▸ isAbsolutePath) with
      ⟨none, _⟩ | ⟨front, closed, same⟩
    · rw [none] at absolute
      cases absolute
    · rw [same]
      cases front with
      | nil => rfl
      | cons c rest =>
        rcases closed with same | same
        · rwa [same] at absolute
        · rwa [same] at absolute

theorem isAbsolute_join_of_relative {path : String} (relative : isAbsolute path = false)
    (directory : String) : isAbsolute (join directory path) = isAbsolute directory := by
  rw [join, relative, Bool.false_or]
  by_cases none : directory = ""
  · rw [if_pos (decide_eq_true none), relative, none]
    rfl
  · have filled : directory.toList ≠ [] := fun empty => none (String.toList_injective empty)
    rw [if_neg (by simp [none])]
    split <;> simp [isAbsolute, List.head?_append_of_ne_nil _ filled]

/-! ### The end of a path -/

theorem turns_dropIdle (backwards : List Char) :
    turns (dropIdle backwards).reverse = turns backwards.reverse := by
  fun_induction dropIdle backwards with
  | case1 c rest inductionHypothesis =>
    rw [inductionHypothesis, show ('/' :: c :: rest).reverse = (c :: rest).reverse ++ ['/'] from
      List.reverse_cons, turns_slash]
  | case2 rest inductionHypothesis =>
    rw [inductionHypothesis, List.reverse_cons, List.reverse_cons, List.reverse_cons,
      List.append_assoc, turns_slash]
    exact ((turns_append rest.reverse ['.']).trans (List.append_nil _)).symm
  | case3 => rfl

theorem getLast?_dropIdle (backwards : List Char) :
    (dropIdle backwards).getLast? = backwards.getLast? := by
  fun_induction dropIdle backwards with
  | case1 c rest inductionHypothesis => rw [inductionHypothesis, List.getLast?_cons_cons]
  | case2 rest inductionHypothesis =>
    rw [inductionHypothesis, List.getLast?_cons_cons]
  | case3 => rfl

theorem length_dropIdle_le (backwards : List Char) :
    (dropIdle backwards).length ≤ backwards.length := by
  fun_induction dropIdle backwards with
  | case1 _ _ inductionHypothesis | case2 _ inductionHypothesis =>
    exact Nat.le_succ_of_le inductionHypothesis
  | case3 => exact Nat.le_refl _

/-- Slashes are dropped up to the first one. -/
theorem dropIdle_of_slash {backwards rest : List Char}
    (dropped : dropIdle backwards = '/' :: rest) : rest = [] := by
  fun_induction dropIdle backwards with
  | case1 c _ inductionHypothesis => exact inductionHypothesis dropped
  | case2 _ inductionHypothesis => exact inductionHypothesis dropped
  | case3 backwards notSlashes _ =>
    cases rest with
    | nil => rfl
    | cons c others => exact absurd dropped (notSlashes c others)

/-- Behind a dot at the end there is no slash left. -/
theorem dropIdle_ne_dot (backwards rest : List Char) : dropIdle backwards ≠ '.' :: '/' :: rest := by
  fun_induction dropIdle backwards with
  | case1 _ _ inductionHypothesis => exact inductionHypothesis
  | case2 _ inductionHypothesis => exact inductionHypothesis
  | case3 _ _ notDot => exact fun same => notDot rest same

/-! ### The last piece -/

section Last

variable {path : String}

theorem not_mem_splitLast (path : String) : '/' ∉ (splitLast path).1 := by
  intro member
  have kept := List.all_eq_true.mp List.all_takeWhile _ (List.mem_reverse.mp member)
  exact absurd rfl (of_decide_eq_true kept)

/-- Backwards, a path is its last piece, and then nothing or a slash and what stands before it. -/
theorem split_backwards (path : String) :
    dropIdle path.toList.reverse = (splitLast path).1.reverse ∧ (splitLast path).2 = [] ∨
    ∃ rest, dropIdle path.toList.reverse = (splitLast path).1.reverse ++ '/' :: rest ∧
      (splitLast path).2 = (dropIdle ('/' :: rest)).reverse := by
  have whole := List.takeWhile_append_dropWhile (p := (· ≠ '/'))
    (l := dropIdle path.toList.reverse)
  cases behind : (dropIdle path.toList.reverse).dropWhile (· ≠ '/') with
  | nil =>
    refine .inl ⟨?_, ?_⟩
    · rw [behind, List.append_nil] at whole
      rw [splitLast, List.reverse_reverse]
      exact whole.symm
    · rw [splitLast, behind]
      rfl
  | cons c rest =>
    have isSlash : c = '/' := by
      have stops := List.head?_dropWhile_not (· ≠ '/') (dropIdle path.toList.reverse)
      rw [behind] at stops
      simpa using stops
    subst isSlash
    refine .inr ⟨rest, ?_, ?_⟩
    · rw [behind] at whole
      rw [splitLast, List.reverse_reverse]
      exact whole.symm
    · rw [splitLast, behind]

/-- The turns of a path are those of its last piece and of what stands before it. -/
theorem turns_splitLast (path : String) :
    turns path.toList = turns (splitLast path).2 ++ turns (splitLast path).1 := by
  have kept := turns_dropIdle path.toList.reverse
  rw [List.reverse_reverse] at kept
  rw [← kept]
  rcases split_backwards path with ⟨same, none⟩ | ⟨rest, same, before⟩
  · rw [same, none, List.reverse_reverse]
    rfl
  · rw [same, before, turns_dropIdle, List.reverse_append, List.reverse_reverse, List.reverse_cons,
      turns_slash, List.append_assoc]
    exact turns_append rest.reverse (splitLast path).1

theorem head?_splitLast (absolute : isAbsolute path = true) :
    (splitLast path).2.head? = some '/' := by
  rw [isAbsolute_iff, ← List.getLast?_reverse, ← getLast?_dropIdle] at absolute
  rcases split_backwards path with ⟨same, _⟩ | ⟨rest, same, before⟩
  · -- The first slash is at the beginning of the path, so it is not in the last piece.
    rw [same] at absolute
    exact absurd (List.mem_reverse.mp (List.mem_of_getLast? absolute)) (not_mem_splitLast path)
  · rw [same, List.getLast?_append_cons] at absolute
    rw [before, List.head?_reverse, getLast?_dropIdle, absolute]

end Last

/-! ### The parent -/

section Parent

variable {path directory : String}

theorem splitLast_of_parent (isParent : parent? path = some directory) :
    (splitLast path).1 ≠ [] ∧ directory.toList = (splitLast path).2 := by
  unfold parent? at isParent
  split at isParent
  · cases isParent
  · next piece before filled split =>
    obtain rfl := Option.some.inj isParent
    rw [split]
    exact ⟨fun empty => filled empty, String.toList_ofList⟩

theorem turns_parent (isParent : parent? path = some directory) :
    turns path.toList = turns directory.toList ++ turns (splitLast path).1 := by
  rw [turns_splitLast, (splitLast_of_parent isParent).2]

theorem isAbsolute_parent (absolute : isAbsolute path = true)
    (isParent : parent? path = some directory) : isAbsolute directory = true := by
  rw [isAbsolute_iff, (splitLast_of_parent isParent).2]
  exact head?_splitLast absolute

/-- A path without a parent makes no turn. -/
theorem turns_of_no_parent (noParent : parent? path = none) : turns path.toList = [] := by
  have noPiece : (splitLast path).1 = [] := by
    unfold parent? at noParent
    split at noParent
    · next before split => rw [split]
    · cases noParent
  rw [turns_splitLast, noPiece, turns_nil, List.append_nil]
  rcases split_backwards path with ⟨_, none⟩ | ⟨rest, same, before⟩
  · rw [none, turns_nil]
  · rw [noPiece] at same
    rw [before, turns_dropIdle, dropIdle_of_slash same]
    rfl

theorem piece_of_fileName {name : String} (isName : fileName? path = some name) :
    name.toList = (splitLast path).1 ∧ IsName (splitLast path).1 := by
  unfold fileName? at isName
  split at isName
  · cases isName
  · next piece before filled split =>
    have whole := not_mem_splitLast path
    rw [split] at whole ⊢
    rw [Part.ofPiece] at isName
    split at isName
    · next text isPart =>
      obtain rfl := Option.some.inj isName
      split at isPart
      · cases isPart
      · next notDot =>
        split at isPart
        · cases isPart
        · next notDots =>
          obtain rfl := Part.name.inj isPart
          exact ⟨String.toList_ofList, fun empty => filled empty, whole, notDot, notDots⟩
    · cases isName

/-- A path with a file name has a parent. -/
theorem parent_of_fileName {name : String} (isName : fileName? path = some name) :
    ∃ directory, parent? path = some directory := by
  cases isParent : parent? path with
  | some directory => exact ⟨directory, rfl⟩
  | none =>
    unfold parent? at isParent
    split at isParent
    · next before split =>
      have filled := (piece_of_fileName isName).2.filled
      rw [split] at filled
      exact absurd rfl filled
    · cases isParent

/-- A single dot is the last piece only of what comes to nothing else. -/
theorem splitLast_of_dot (isDot : (splitLast path).1 = ['.']) : (splitLast path).2 = [] := by
  rcases split_backwards path with ⟨_, none⟩ | ⟨rest, same, _⟩
  · exact none
  · rw [isDot] at same
    exact absurd same (dropIdle_ne_dot _ rest)

/-- A parent is shorter than its path. -/
theorem length_parent_lt (isParent : parent? path = some directory) :
    directory.length < path.length := by
  obtain ⟨filled, before⟩ := splitLast_of_parent isParent
  have piece : 0 < (splitLast path).1.length := List.length_pos_iff.mpr filled
  have whole := length_dropIdle_le path.toList.reverse
  rw [List.length_reverse, String.length_toList] at whole
  rw [← String.length_toList, before]
  rcases split_backwards path with ⟨same, none⟩ | ⟨rest, same, behind⟩
  · rw [same, List.length_reverse] at whole
    rw [none]
    exact Nat.lt_of_lt_of_le piece whole
  · have dropped := length_dropIdle_le ('/' :: rest)
    rw [same, List.length_append, List.length_reverse] at whole
    rw [behind, List.length_reverse]
    omega

/-- The parent takes all turns of a path but the last one, unless the path is a single dot. -/
theorem turns_parent_concat (isParent : parent? path = some directory)
    (notDot : (splitLast path).1 ≠ ['.']) :
    turns path.toList = turns directory.toList ++ [.ofPiece (splitLast path).1] := by
  rw [turns_parent isParent, turns, turns, cutChars_of_not_mem (not_mem_splitLast path),
    innerParts_cons (splitLast_of_parent isParent).1 notDot]
  rfl

/-- The parent of an absolute path takes all of its turns but the last one. -/
theorem turns_of_parent (absolute : isAbsolute path = true)
    (isParent : parent? path = some directory) :
    ∃ turn, turns path.toList = turns directory.toList ++ [turn] := by
  refine ⟨_, turns_parent_concat isParent fun isDot => ?_⟩
  have isRooted := isAbsolute_iff.mp (isAbsolute_parent absolute isParent)
  rw [(splitLast_of_parent isParent).2, splitLast_of_dot isDot] at isRooted
  cases isRooted

/-- Where the last turn of a path is to a name, the parent takes all turns but this one. -/
theorem parent_of_last {name : List Char}
    (isLast : (turns path.toList).getLast? = some (.name name)) :
    ∃ directory, parent? path = some directory ∧
      turns path.toList = turns directory.toList ++ [.name name] := by
  cases isParent : parent? path with
  | none =>
    rw [turns_of_no_parent isParent] at isLast
    cases isLast
  | some directory =>
    refine ⟨directory, rfl, ?_⟩
    by_cases isDot : (splitLast path).1 = ['.']
    · rw [turns_parent isParent, (splitLast_of_parent isParent).2, splitLast_of_dot isDot,
        isDot] at isLast
      cases isLast
    · have split := turns_parent_concat isParent isDot
      rw [split, List.getLast?_concat] at isLast
      rw [split, Option.some.inj isLast]

end Parent

/-! ### Paths of names -/

theorem toList_ofNames (absolute : Bool) (names : List (List Char)) :
    (ofNames absolute names).toList =
      (if absolute then ['/'] else []) ++ ['/'].intercalate names := by
  have same : (names.map String.ofList).map String.toList = names := by
    rw [List.map_map]
    exact (List.map_congr_left fun _ _ => String.toList_ofList).trans (List.map_id names)
  rw [ofNames, String.toList_append, String.toList_intercalate, same]
  cases absolute <;> rfl

theorem cutChars_names {names : List (List Char)} (areNames : ∀ name ∈ names, IsName name)
    (filled : names ≠ []) : cutChars '/' (['/'].intercalate names) = names := by
  rw [cutChars_eq, List.splitOn_intercalate '/' (fun name member => (areNames name member).whole)
    filled]

theorem innerParts_names {names : List (List Char)} (areNames : ∀ name ∈ names, IsName name) :
    innerParts names = names.map Part.name := by
  induction names with
  | nil => rfl
  | cons name rest inductionHypothesis =>
    have isName := areNames name List.mem_cons_self
    have here := innerParts_of_isName isName
    rw [List.map_cons, ← List.singleton_append, innerParts_append, here,
      inductionHypothesis fun other member => areNames other (List.mem_cons_of_mem _ member)]
    rfl

/-- The turns of a path of names are the names. -/
theorem turns_ofNames {names : List (List Char)} (areNames : ∀ name ∈ names, IsName name)
    (absolute : Bool) : turns (ofNames absolute names).toList = names.map Part.name := by
  have relative : turns (['/'].intercalate names) = names.map Part.name := by
    by_cases filled : names = []
    · rw [filled]
      rfl
    · rw [turns, cutChars_names areNames filled, innerParts_names areNames]
  rw [toList_ofNames]
  cases absolute with
  | false => exact relative
  | true => exact (turns_append [] _).trans relative

/-- The walk along a path of names leaves all of them. -/
theorem reduce_ofNames {names : List (List Char)} (areNames : ∀ name ∈ names, IsName name)
    (absolute : Bool) : reduce [] (turns (ofNames absolute names).toList) = some names.reverse := by
  rw [turns_ofNames areNames, reduce_names, List.append_nil]

theorem isAbsolute_ofNames (names : List (List Char)) : isAbsolute (ofNames true names) = true := by
  rw [isAbsolute_iff, toList_ofNames]
  rfl

/-- A path of some names is not empty. -/
theorem ofNames_ne_empty {names : List (List Char)} (areNames : ∀ name ∈ names, IsName name)
    (filled : names ≠ []) (absolute : Bool) : ofNames absolute names ≠ "" := by
  intro empty
  have turned := turns_ofNames areNames absolute
  rw [empty] at turned
  exact filled (List.map_eq_nil_iff.mp turned.symm)

/-- Taking the dots away leaves the names that the turns lead to. -/
theorem resolveDots_eq_ok {path resolved : String} :
    resolveDots path = .ok resolved ↔ ∃ names, reduce [] (turns path.toList) = some names ∧
      resolved = ofNames (isAbsolute path) names.reverse := by
  rw [resolveDots, reduce_parts]
  cases reduce [] (turns path.toList) with
  | none => exact ⟨nofun, nofun⟩
  | some names =>
    constructor
    · intro same
      exact ⟨names, rfl, (Except.ok.inj same).symm⟩
    · rintro ⟨_, same, rfl⟩
      obtain rfl := Option.some.inj same
      rfl

end LayeredConfig.Path
