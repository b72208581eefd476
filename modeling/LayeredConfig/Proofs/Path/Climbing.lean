/-
This file says which paths come to something when their dots are taken away, and what to.

Part by part a path is a walk with a stack: a name is put on top, and `..` takes the top name off.
The walk fails where there is no name to take off, so a path comes to something exactly if at every
point of it the `..` so far are no more than the names so far. The stack may be kept as a path: a
name is joined to what there is, and `..` takes the parent of it, if its last part is a name. What
is read from a path may as well be read from what the path comes to.
-/

import LayeredConfig.Proofs.Path.Normal

namespace LayeredConfig.Path

open Text

/-! ### The parts of a path -/

/-- Beside its turns a path has the root, or a dot at the beginning, or nothing. -/
theorem parts_cases (path : String) :
    isAbsolute path = true ∧ parts path = .root :: turns path.toList ∨
      isAbsolute path = false ∧
        (parts path = turns path.toList ∨ parts path = .current :: turns path.toList) := by
  rw [isAbsolute, parts, turns]
  cases path.toList with
  | nil => exact .inr ⟨rfl, .inl rfl⟩
  | cons c rest =>
    have someRest : cutChars '/' rest ≠ [] := cutChars_eq '/' rest ▸ List.splitOn_ne_nil '/' rest
    obtain ⟨piece, pieces, split⟩ := List.exists_cons_of_ne_nil someRest
    rw [cutChars, split]
    dsimp only
    split_ifs with isSlash
    · exact .inl ⟨beq_iff_eq.mpr (congrArg some isSlash), rfl⟩
    · refine .inr ⟨beq_eq_false_iff_ne.mpr fun same => isSlash (Option.some.inj same), ?_⟩
      by_cases isDot : c :: piece = ['.']
      · rw [isDot]
        exact .inr rfl
      · rw [innerParts_cons (List.cons_ne_nil c piece) isDot]
        exact .inl rfl

/-- A turn is `..` or a name. -/
theorem turn_cases {path : List Char} {part : Part} (member : part ∈ turns path) :
    part = .parent ∨ ∃ name, IsName name ∧ part = .name name := by
  cases part with
  | parent => exact .inl rfl
  | name text => exact .inr ⟨text, isName_of_mem_turns member, rfl⟩
  | root | current =>
    obtain ⟨piece, kept, isPart⟩ := List.mem_map.mp member
    obtain ⟨_, counts⟩ := List.mem_filter.mp kept
    have notDot : piece ≠ ['.'] := bne_iff_ne.mp (Bool.and_eq_true_iff.mp counts).2
    rw [Part.ofPiece, if_neg notDot] at isPart
    split at isPart <;> cases isPart

/-- The parts of a path of names are the names, behind the root if it is absolute. -/
theorem parts_ofNames {names : List (List Char)} (areNames : ∀ name ∈ names, IsName name)
    (absolute : Bool) : parts (ofNames absolute names) =
      (if absolute then [.root] else []) ++ names.map Part.name := by
  cases absolute with
  | true =>
    rcases parts_cases (ofNames true names) with ⟨_, same⟩ | ⟨isRelative, _⟩
    · rw [same, turns_ofNames areNames]
      rfl
    · rw [isAbsolute_ofNames] at isRelative
      cases isRelative
  | false =>
    cases names with
    | nil => rfl
    | cons name rest =>
      have isName := areNames name List.mem_cons_self
      have whole : (ofNames false (name :: rest)).toList = ['/'].intercalate (name :: rest) :=
        toList_ofNames false _
      have areOthers : ∀ other ∈ rest, IsName other := fun other member =>
        areNames other (List.mem_cons_of_mem _ member)
      rw [parts, whole, cutChars_names areNames (List.cons_ne_nil name rest)]
      split
      · next none => cases none
      · next empty => exact absurd (List.cons.inj empty).1 isName.filled
      · next empty => exact absurd (List.cons.inj empty).1 isName.filled
      · next same =>
        obtain ⟨rfl, rfl⟩ := List.cons.inj same
        rw [innerParts_names areOthers, Part.ofPiece, if_neg isName.notDot, if_neg isName.notDots]
        rfl

theorem mem_parts_ofNames {names : List (List Char)} (areNames : ∀ name ∈ names, IsName name)
    {absolute : Bool} {part : Part} (member : part ∈ parts (ofNames absolute names)) :
    part = .root ∧ absolute = true ∨ ∃ name, part = .name name := by
  rw [parts_ofNames areNames, List.mem_append] at member
  rcases member with isRoot | isName
  · cases absolute with
    | true => exact .inl ⟨List.mem_singleton.mp isRoot, rfl⟩
    | false => cases isRoot
  · obtain ⟨name, _, rfl⟩ := List.mem_map.mp isName
    exact .inr ⟨name, rfl⟩

theorem isAbsolute_ofNames_eq {names : List (List Char)} (areNames : ∀ name ∈ names, IsName name)
    (absolute : Bool) : isAbsolute (ofNames absolute names) = absolute := by
  cases absolute with
  | true => exact isAbsolute_ofNames names
  | false =>
    rcases parts_cases (ofNames false names) with ⟨_, rooted⟩ | ⟨isRelative, _⟩
    · rcases mem_parts_ofNames areNames (rooted ▸ List.mem_cons_self) with ⟨_, same⟩ | ⟨_, same⟩
      · cases same
      · cases same
    · exact isRelative

theorem rootless_turns (path : List Char) : .root ∉ turns path := by
  intro member
  rcases turn_cases member with isParent | ⟨_, _, isName⟩
  · cases isParent
  · cases isName

/-! ### How far a path climbs -/

/-- The name of a part that is one. -/
def Part.name? : Part → Option (List Char)
  | .name text => some text
  | _ => none

/-- At no point are the `..` so far more than a height and the names so far. -/
def ClimbsWithin (height : Nat) (parts : List Part) : Prop :=
  ∀ front, front <+: parts → front.count .parent ≤ height + (front.filterMap Part.name?).length

section Climbing

variable {height : Nat} {rest : List Part}

theorem climbsWithin_cons {part : Part} : ClimbsWithin height (part :: rest) ↔
    ∀ front, front <+: rest →
      (part :: front).count .parent ≤ height + ((part :: front).filterMap Part.name?).length := by
  constructor
  · intro climbs front isFront
    exact climbs _ ((List.prefix_cons_inj part).mpr isFront)
  · intro climbs front isFront
    rcases List.prefix_cons_iff.mp isFront with rfl | ⟨others, rfl, isOther⟩
    · exact Nat.zero_le _
    · exact climbs others isOther

theorem climbsWithin_name {text : List Char} :
    ClimbsWithin height (.name text :: rest) ↔ ClimbsWithin (height + 1) rest := by
  have named : (Part.name text).name? = some text := rfl
  have stays : Part.name text ≠ .parent := nofun
  rw [climbsWithin_cons]
  refine forall₂_congr fun front _ => ?_
  rw [List.count_cons_of_ne stays, List.filterMap_cons_some named, List.length_cons]
  omega

theorem climbsWithin_idle (part : Part) (stays : part ≠ .parent) (unnamed : part.name? = none) :
    ClimbsWithin height (part :: rest) ↔ ClimbsWithin height rest := by
  rw [climbsWithin_cons]
  refine forall₂_congr fun front _ => ?_
  rw [List.count_cons_of_ne stays, List.filterMap_cons_none unnamed]

theorem not_climbsWithin_parent : ¬ ClimbsWithin 0 (.parent :: rest) := by
  intro climbs
  have atStart := climbsWithin_cons.mp climbs [] List.nil_prefix
  exact absurd atStart (by decide)

theorem climbsWithin_parent :
    ClimbsWithin (height + 1) (.parent :: rest) ↔ ClimbsWithin height rest := by
  have unnamed : Part.parent.name? = none := rfl
  rw [climbsWithin_cons]
  refine forall₂_congr fun front _ => ?_
  rw [List.count_cons_self, List.filterMap_cons_none unnamed]
  omega

theorem climbsWithin_nil : ClimbsWithin height [] := by
  intro front isFront
  rw [List.prefix_nil.mp isFront]
  exact Nat.zero_le _

/-- Behind some names, there is as much further to climb. -/
theorem climbsWithin_names (names : List (List Char)) :
    ClimbsWithin height (names.map Part.name ++ rest) ↔
      ClimbsWithin (height + names.length) rest := by
  induction names generalizing height with
  | nil => rfl
  | cons name others inductionHypothesis =>
    rw [List.map_cons, List.cons_append, climbsWithin_name, inductionHypothesis, List.length_cons,
      Nat.add_right_comm, Nat.add_assoc]

theorem ClimbsWithin.of_append {parts : List Part} (climbs : ClimbsWithin height (parts ++ rest)) :
    ClimbsWithin height parts :=
  fun front isFront => climbs front (isFront.trans (List.prefix_append parts rest))

theorem ClimbsWithin.append_name {parts : List Part} (climbs : ClimbsWithin height parts)
    (text : List Char) : ClimbsWithin height (parts ++ [.name text]) := by
  intro front isFront
  rcases List.prefix_concat_iff.mp isFront with rfl | isFront
  · have before := climbs parts (List.prefix_refl parts)
    have noParent : [Part.name text].count .parent = 0 := rfl
    rw [List.count_append, noParent, List.filterMap_append, List.length_append]
    omega
  · exact climbs front isFront

end Climbing

/-- The walk succeeds if it never climbs above the names that are there at the start. -/
theorem isSome_reduce_iff (names : List (List Char)) (parts : List Part) :
    (reduce names parts).isSome = true ↔ ClimbsWithin names.length parts := by
  fun_induction reduce names parts with
  | case1 => exact iff_of_true rfl climbsWithin_nil
  | case2 _ _ _ inductionHypothesis => exact inductionHypothesis.trans climbsWithin_name.symm
  | case3 _ _ inductionHypothesis =>
    exact inductionHypothesis.trans (climbsWithin_idle .root (by decide) rfl).symm
  | case4 _ _ inductionHypothesis =>
    exact inductionHypothesis.trans (climbsWithin_idle .current (by decide) rfl).symm
  | case5 => exact iff_of_false Bool.false_ne_true not_climbsWithin_parent
  | case6 _ _ _ inductionHypothesis => exact inductionHypothesis.trans climbsWithin_parent.symm

instance (height : Nat) (parts : List Part) : Decidable (ClimbsWithin height parts) :=
  decidable_of_iff ((reduce (List.replicate height []) parts).isSome = true) (by
    rw [isSome_reduce_iff, List.length_replicate])

/-! ### The stack of parts -/

/-- A part put on a stack of parts: `..` takes off what lies on top, and a dot does nothing. -/
def stacked : List Part → Part → List Part
  | stack, .current => stack
  | stack, .parent => stack.tail
  | stack, part => part :: stack

/-- The stack of parts holds the remaining names, on what was there before. -/
theorem foldl_stacked {names result : List (List Char)} {parts : List Part} (below : List Part)
    (rootless : .root ∉ parts) (reduced : reduce names parts = some result) :
    parts.foldl stacked (names.map Part.name ++ below) = result.map Part.name ++ below := by
  fun_induction reduce names parts with
  | case1 =>
    cases reduced
    rfl
  | case2 names text rest inductionHypothesis | case4 names rest inductionHypothesis
  | case6 _ names rest inductionHypothesis =>
    exact inductionHypothesis (List.not_mem_of_not_mem_cons rootless) reduced
  | case3 => exact absurd List.mem_cons_self rootless
  | case5 => cases reduced

/-! ### The stack kept as a path -/

/-- A part put behind a path without dots, of which `..` takes the last name off. -/
def advance (path : String) : Part → Option String
  | .root => some (join path "/")
  | .name text => some (join path (String.ofList text))
  | .current => some path
  | .parent => if (fileName? path).isSome then parent? path else none

section Advance

variable {absolute : Bool} {names : List (List Char)} {name : List Char}

theorem advance_name (areNames : ∀ other ∈ names, IsName other) (isName : IsName name) :
    advance (ofNames absolute names.reverse) (.name name) =
      some (ofNames absolute (name :: names).reverse) := by
  have areOthers : ∀ other ∈ names.reverse, IsName other := fun other member =>
    areNames other (List.mem_reverse.mp member)
  have spelled : (String.ofList name).toList = name := String.toList_ofList
  rw [advance, join_ofNames areOthers (by rwa [spelled]), spelled, List.reverse_cons]

theorem advance_parent (areNames : ∀ other ∈ name :: names, IsName other) :
    advance (ofNames absolute (name :: names).reverse) .parent =
      some (ofNames absolute names.reverse) := by
  obtain ⟨isName, areOthers⟩ := List.forall_mem_cons.mp areNames
  have areOthers : ∀ other ∈ names.reverse, IsName other := fun other member =>
    areOthers other (List.mem_reverse.mp member)
  rw [advance, List.reverse_cons, fileName_ofNames areOthers isName,
    parent_ofNames areOthers isName]
  rfl

theorem advance_parent_nil (absolute : Bool) : advance (ofNames absolute []) .parent = none := by
  cases absolute <;> decide

/-- The path that is built part by part is the path of the names that remain. -/
theorem foldlM_advance {parts : List Part} (absolute : Bool)
    (areNames : ∀ name ∈ names, IsName name) (rootless : .root ∉ parts)
    (named : ∀ name, .name name ∈ parts → IsName name) :
    parts.foldlM advance (ofNames absolute names.reverse) =
      (reduce names parts).map fun remaining => ofNames absolute remaining.reverse := by
  fun_induction reduce names parts with
  | case1 => rfl
  | case2 names text rest inductionHypothesis =>
    have isName := named text List.mem_cons_self
    rw [List.foldlM_cons, advance_name areNames isName]
    exact inductionHypothesis (List.forall_mem_cons.mpr ⟨isName, areNames⟩)
      (List.not_mem_of_not_mem_cons rootless)
      fun name member => named name (List.mem_cons_of_mem _ member)
  | case3 => exact absurd List.mem_cons_self rootless
  | case4 names rest inductionHypothesis =>
    exact inductionHypothesis areNames (List.not_mem_of_not_mem_cons rootless)
      fun name member => named name (List.mem_cons_of_mem _ member)
  | case5 rest =>
    rw [List.foldlM_cons, List.reverse_nil, advance_parent_nil]
    rfl
  | case6 name names rest inductionHypothesis =>
    rw [List.foldlM_cons, advance_parent areNames]
    exact inductionHypothesis (List.forall_mem_cons.mp areNames).2
      (List.not_mem_of_not_mem_cons rootless)
      fun name member => named name (List.mem_cons_of_mem _ member)

end Advance

/-! ### What a path comes to -/

variable {path : String}

theorem toOption_resolveDots (path : String) : (resolveDots path).toOption =
    (reduce [] (turns path.toList)).map fun names => ofNames (isAbsolute path) names.reverse := by
  rw [resolveDots, reduce_parts]
  cases reduce [] (turns path.toList) <;> rfl

theorem exists_resolveDots_iff (path : String) :
    (∃ resolved, resolveDots path = .ok resolved) ↔ ClimbsWithin 0 (parts path) := by
  refine Iff.trans ?_ (isSome_reduce_iff [] (parts path))
  rw [reduce_parts, Option.isSome_iff_exists]
  constructor
  · rintro ⟨_, isResolved⟩
    obtain ⟨names, reduced, _⟩ := resolveDots_eq_ok.mp isResolved
    exact ⟨names, reduced⟩
  · rintro ⟨names, reduced⟩
    exact ⟨_, resolveDots_eq_ok.mpr ⟨names, reduced, rfl⟩⟩

theorem foldlM_advance_parts (path : String) :
    (parts path).foldlM advance "" = (resolveDots path).toOption := by
  have built (absolute : Bool) : (turns path.toList).foldlM advance (ofNames absolute []) =
      (reduce [] (turns path.toList)).map fun names => ofNames absolute names.reverse :=
    foldlM_advance absolute (List.forall_mem_nil _) (rootless_turns path.toList)
      fun _ => isName_of_mem_turns
  have atRoot : advance "" .root = some (ofNames true []) := by decide
  have atStart : "" = ofNames false [] := by decide
  rw [toOption_resolveDots]
  rcases parts_cases path with ⟨absolute, same⟩ | ⟨relative, same | same⟩
  · rw [same, absolute, ← built, List.foldlM_cons, atRoot]
    rfl
  · rw [same, relative, ← built, ← atStart]
  · rw [same, relative, ← built, ← atStart, List.foldlM_cons]
    rfl

theorem parts_of_resolveDots {resolved : String} (isResolved : resolveDots path = .ok resolved) :
    parts resolved = ((parts path).foldl stacked []).reverse := by
  obtain ⟨names, reduced, rfl⟩ := resolveDots_eq_ok.mp isResolved
  have stack (below : List Part) : (turns path.toList).foldl stacked below =
      names.map Part.name ++ below := foldl_stacked below (rootless_turns path.toList) reduced
  have backwards : ((parts path).foldl stacked []) =
      names.map Part.name ++ if isAbsolute path then [.root] else [] := by
    rcases parts_cases path with ⟨absolute, same⟩ | ⟨relative, same | same⟩
    · rw [same, absolute]
      exact stack [.root]
    · rw [same, relative]
      exact stack []
    · rw [same, relative]
      exact stack []
  rw [backwards, parts_ofNames (areNames_of_reduce reduced), List.reverse_append, List.map_reverse]
  cases isAbsolute path <;> rfl

/-- What a path comes to stands for it as a base. -/
theorem absolutize_of_resolveDots {resolved : String}
    (isResolved : resolveDots path = .ok resolved) (other : String) :
    (absolutize other path).toOption = (absolutize other resolved).toOption := by
  obtain ⟨names, reduced, same⟩ := resolveDots_eq_ok.mp isResolved
  have areNames := areNames_of_reduce reduced
  have sameKind : isAbsolute resolved = isAbsolute path :=
    same ▸ isAbsolute_ofNames_eq areNames (isAbsolute path)
  have sameTurns : reduce [] (turns resolved.toList) = some names := by
    rw [same, reduce_ofNames areNames, List.reverse_reverse]
  rw [absolutize_eq, absolutize_eq, toOption_resolveDots, toOption_resolveDots]
  cases absolute : isAbsolute other with
  | true =>
    have itself (directory : String) : join directory other = other := by
      rw [join, absolute, Bool.true_or, if_pos rfl]
    rw [itself, itself]
  | false =>
    rw [reduce_join absolute, reduce_join absolute, reduced, sameTurns,
      isAbsolute_join_of_relative absolute, isAbsolute_join_of_relative absolute, sameKind]

/-- A path comes to something exactly if it never climbs above its names so far; what it comes to is
what the walk with a stack leaves, and the walk on paths too, and stands for the path as a base. -/
theorem resolveDots_follows_stack (path : String) :
    ((∃ resolved, resolveDots path = .ok resolved) ↔ ∀ front, front <+: parts path →
        front.count .parent ≤ (front.filterMap Part.name?).length) ∧
      (parts path).foldlM advance "" = (resolveDots path).toOption ∧
      ∀ resolved, resolveDots path = .ok resolved →
        isAbsolute resolved = isAbsolute path ∧
        .current ∉ parts resolved ∧ .parent ∉ parts resolved ∧
        parts resolved = ((parts path).foldl stacked []).reverse ∧
        resolveDots resolved = .ok resolved ∧
        ∀ other, (absolutize other path).toOption = (absolutize other resolved).toOption := by
  refine ⟨?_, foldlM_advance_parts path, fun resolved isResolved => ?_⟩
  · simpa only [ClimbsWithin, Nat.zero_add] using exists_resolveDots_iff path
  · obtain ⟨names, reduced, rfl⟩ := resolveDots_eq_ok.mp isResolved
    have areNames := areNames_of_reduce reduced
    have sameKind := isAbsolute_ofNames_eq areNames (isAbsolute path)
    refine ⟨sameKind, fun member => ?_, fun member => ?_, parts_of_resolveDots isResolved, ?_,
      absolutize_of_resolveDots isResolved⟩
    · rcases mem_parts_ofNames areNames member with ⟨same, _⟩ | ⟨_, same⟩ <;> cases same
    · rcases mem_parts_ofNames areNames member with ⟨same, _⟩ | ⟨_, same⟩ <;> cases same
    · refine resolveDots_eq_ok.mpr ⟨names, ?_, by rw [sameKind]⟩
      rw [reduce_ofNames areNames, List.reverse_reverse]

/-- A path that comes back to its start stands for no directory at all. -/
theorem resolveDots_follows_stack_back :
    resolveDots "./a/b/../.." = .ok "" ∧
      parts "" = ((parts "./a/b/../..").foldl stacked []).reverse ∧
      (absolutize "d/./e" "./a/b/../..").toOption = (absolutize "d/./e" "").toOption := by
  have isResolved : resolveDots "./a/b/../.." = .ok "" := by decide
  obtain ⟨_, _, _, stack, _, sameBase⟩ :=
    (resolveDots_follows_stack "./a/b/../..").2.2 "" isResolved
  exact ⟨isResolved, stack, sameBase "d/./e"⟩

end LayeredConfig.Path
