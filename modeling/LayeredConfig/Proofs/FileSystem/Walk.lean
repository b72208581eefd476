/-
This file says how the path of a file ends.

A walk only goes on from directories, and it goes up to directories that it came through. So a walk
that ends at a file has made its last turn to a name; every other turn leads to a directory. This
name stays where the dots of the path are taken away, and what stands in front of it is then the
directory of the file without its dots.
-/

import LayeredConfig.FileSystem
import LayeredConfig.Proofs.Path.Normal

namespace LayeredConfig.FileSystem

open LayeredConfig.Path Text

variable {files : FileSystem}

/-! ### Walking -/

/-- All that stands above a way is directories. -/
inductive Open (files : FileSystem) : List String → Prop where
  | root : Open files []
  | name {way : List String} {piece : String} (above : Open files way)
      (isDirectory : files.entryAt? way.reverse = some .directory) : Open files (piece :: way)

theorem Open.tail {way : List String} (isOpen : Open files way) :
    Open files way.tail ∧ files.entryAt? way.tail.reverse = some .directory := by
  cases isOpen with
  | root => exact ⟨.root, rfl⟩
  | name above isDirectory => exact ⟨above, isDirectory⟩

/-- One step from a directory. -/
theorem walk_cons {way : List String} (piece : String) (rest : List String)
    (isDirectory : files.entryAt? way.reverse = some .directory) : files.walk way (piece :: rest) =
      if piece = "" || piece = "." then files.walk way rest
      else if piece = ".." then files.walk way.tail rest
      else if piece.utf8ByteSize > nameLimit then .error .nameTooLong
      else files.walk (piece :: way) rest := by
  rw [walk, isDirectory]

theorem walk_append (way first second : List String) :
    files.walk way (first ++ second) =
      files.walk way first >>= fun middle => files.walk middle second := by
  induction first generalizing way with
  | nil => rfl
  | cons piece rest inductionHypothesis =>
    cases isEntry : files.entryAt? way.reverse with
    | none =>
      rw [List.cons_append, walk, walk, isEntry]
      rfl
    | some entry =>
      cases entry with
      | file content =>
        rw [List.cons_append, walk, walk, isEntry]
        rfl
      | directory =>
        rw [List.cons_append, walk_cons _ _ isEntry, walk_cons _ _ isEntry]
        split
        · exact inductionHypothesis way
        · split
          · exact inductionHypothesis way.tail
          · split
            · rfl
            · exact inductionHypothesis (piece :: way)

theorem isName_of_walked {piece : String} (whole : '/' ∉ piece.toList)
    (counts : ¬(decide (piece = "") || decide (piece = ".")) = true) (notDots : piece ≠ "..") :
    IsName piece.toList := by
  rw [Bool.or_eq_true, decide_eq_true_iff, decide_eq_true_iff, not_or] at counts
  refine ⟨fun same => counts.1 ?_, whole, fun same => counts.2 ?_, fun same => notDots ?_⟩
  · exact String.toList_injective same
  · exact String.toList_injective same
  · exact String.toList_injective same

theorem innerParts_of_idle {piece : String}
    (isIdle : (decide (piece = "") || decide (piece = ".")) = true) (pieces : List (List Char)) :
    innerParts (piece.toList :: pieces) = innerParts pieces := by
  rw [Bool.or_eq_true, decide_eq_true_iff, decide_eq_true_iff] at isIdle
  rcases isIdle with rfl | rfl <;> rfl

/-- A walk leads to an open way; and where it does not end with a name, it leads to a directory. -/
theorem open_of_walk {way pieces final : List String} (isOpen : Open files way)
    (whole : ∀ piece ∈ pieces, '/' ∉ piece.toList) (walked : files.walk way pieces = .ok final) :
    Open files final ∧ (pieces = [] ∧ final = way ∨
      files.entryAt? final.reverse = some .directory ∨
      ∃ name, (innerParts (pieces.map String.toList)).getLast? = some (.name name)) := by
  fun_induction walk files way pieces with
  | case1 =>
    cases walked
    exact ⟨isOpen, .inl ⟨rfl, rfl⟩⟩
  | case2 => cases walked
  | case3 => cases walked
  | case4 _ piece rest isDirectory isIdle inductionHypothesis =>
    obtain ⟨isOpen, leads⟩ := inductionHypothesis isOpen
      (fun other member => whole other (List.mem_cons_of_mem _ member)) walked
    refine ⟨isOpen, .inr ?_⟩
    rw [List.map_cons, innerParts_of_idle isIdle]
    rcases leads with ⟨_, rfl⟩ | leads
    · exact .inl isDirectory
    · exact leads
  | case5 _ rest isDirectory _ inductionHypothesis =>
    obtain ⟨above, isAbove⟩ := isOpen.tail
    obtain ⟨isOpen, leads⟩ := inductionHypothesis above
      (fun other member => whole other (List.mem_cons_of_mem _ member)) walked
    refine ⟨isOpen, .inr ?_⟩
    rcases leads with ⟨_, rfl⟩ | isDirectory | ⟨name, isLast⟩
    · exact .inl isAbove
    · exact .inl isDirectory
    · refine .inr ⟨name, ?_⟩
      rw [List.map_cons, innerParts_cons (by decide) (by decide), List.getLast?_cons, isLast]
      rfl
  | case6 => cases walked
  | case7 _ piece rest isDirectory counts notDots _ inductionHypothesis =>
    have isName := isName_of_walked (whole piece List.mem_cons_self) counts notDots
    obtain ⟨isOpen, leads⟩ := inductionHypothesis (.name isOpen isDirectory)
      (fun other member => whole other (List.mem_cons_of_mem _ member)) walked
    refine ⟨isOpen, .inr ?_⟩
    rw [List.map_cons, innerParts_of_name isName, List.getLast?_cons]
    rcases leads with ⟨rfl, _⟩ | isDirectory | ⟨name, isLast⟩
    · exact .inr ⟨piece.toList, rfl⟩
    · exact .inl isDirectory
    · refine .inr ⟨name, ?_⟩
      rw [isLast]
      rfl

/-! ### Locating -/

theorem whole_of_mem_cut {path piece : String} (member : piece ∈ cut '/' path) :
    '/' ∉ piece.toList := by
  obtain ⟨chars, isPiece, rfl⟩ := List.mem_map.mp member
  rw [String.toList_ofList]
  exact not_mem_of_mem_cutChars isPiece

theorem map_toList_cut (path : String) :
    (cut '/' path).map String.toList = cutChars '/' path.toList := by
  rw [cut, List.map_map]
  exact (List.map_congr_left fun _ _ => String.toList_ofList).trans (List.map_id _)

theorem innerParts_cut (path : String) :
    innerParts ((cut '/' path).map String.toList) = turns path.toList := by
  rw [map_toList_cut]
  rfl

/-- Where a path is walked from. -/
def StartsAt (workingDirectory : Option String) (path start : String) : Prop :=
  if isAbsolute path then start = "" else workingDirectory = some start

section Locate

variable {workingDirectory : Option String} {path : String} {entry : FileEntry}

theorem entry_eq_ok {pieces : List String} : (do
      let way ← files.walk [] pieces
      match files.entryAt? way.reverse with
      | some entry => pure entry
      | none => throw FileFault.missing) = Except.ok entry ↔
    ∃ way, files.walk [] pieces = .ok way ∧ files.entryAt? way.reverse = some entry := by
  rw [bind_eq_ok]
  refine exists_congr fun way => and_congr_right fun _ => ?_
  cases files.entryAt? way.reverse with
  | none => exact ⟨nofun, nofun⟩
  | some other => exact ⟨fun same => congrArg some (Except.ok.inj same), fun same =>
      congrArg Except.ok (Option.some.inj same)⟩

/-- A path leads to what stands at the end of its walk. -/
theorem locate_eq_ok : files.locate workingDirectory path = .ok entry ↔
    '\x00' ∉ path.toList ∧ path.utf8ByteSize < pathLimit ∧ path ≠ "" ∧
      ∃ start way, StartsAt workingDirectory path start ∧
        files.walk [] (cut '/' start ++ cut '/' path) = .ok way ∧
        files.entryAt? way.reverse = some entry := by
  unfold locate StartsAt
  by_cases isText : '\x00' ∈ path.toList
  · rw [if_pos (List.contains_iff_mem.mpr isText)]
    exact ⟨nofun, fun sound => absurd isText sound.1⟩
  rw [if_neg (fun found => isText (List.contains_iff_mem.mp found))]
  dsimp only
  by_cases short : path.utf8ByteSize < pathLimit
  swap
  · rw [if_pos (Nat.le_of_not_lt short)]
    exact ⟨nofun, fun sound => absurd sound.2.1 short⟩
  rw [if_neg (Nat.not_le.mpr short)]
  by_cases empty : path = ""
  · rw [if_pos empty]
    exact ⟨nofun, fun sound => absurd empty sound.2.2.1⟩
  rw [if_neg empty]
  cases isAbsolute path with
  | true =>
    refine Iff.trans entry_eq_ok
      ⟨fun ⟨way, walked⟩ => ⟨isText, short, empty, "", way, rfl, walked⟩, ?_⟩
    rintro ⟨_, _, _, _, way, rfl, walked⟩
    exact ⟨way, walked⟩
  | false =>
    cases workingDirectory with
    | none =>
      refine ⟨nofun, ?_⟩
      rintro ⟨_, _, _, _, _, same, _⟩
      cases same
    | some directory =>
      refine Iff.trans entry_eq_ok
        ⟨fun ⟨way, walked⟩ => ⟨isText, short, empty, directory, way, rfl, walked⟩, ?_⟩
      rintro ⟨_, _, _, _, way, same, walked⟩
      obtain rfl := Option.some.inj same
      exact ⟨way, walked⟩

theorem StartsAt.turns_join {start : String} (starts : StartsAt workingDirectory path start) :
    turns (join start path).toList = turns start.toList ++ turns path.toList := by
  unfold StartsAt at starts
  split at starts
  · next absolute =>
    rw [starts, join, absolute]
    rfl
  · next relative => exact Path.turns_join (Bool.not_eq_true _ ▸ relative)

/-- A path that leads to a file makes its last turn to the name of the file. -/
theorem parent_of_file {content : ByteArray}
    (located : files.locate workingDirectory path = .ok (.file content)) :
    ∃ directory name, parent? path = some directory ∧
      turns path.toList = turns directory.toList ++ [.name name] := by
  obtain ⟨_, _, _, start, way, _, walked, isEntry⟩ := locate_eq_ok.mp located
  rw [walk_append] at walked
  obtain ⟨middle, isMiddle, walked⟩ := bind_eq_ok.mp walked
  have isOpen := (open_of_walk .root (fun _ => whole_of_mem_cut) isMiddle).1
  rcases (open_of_walk isOpen (fun _ => whole_of_mem_cut) walked).2 with
    ⟨none, _⟩ | isDirectory | ⟨name, isLast⟩
  · rw [cut, List.map_eq_nil_iff, cutChars_eq] at none
    exact absurd none (List.splitOn_ne_nil '/' path.toList)
  · rw [isEntry] at isDirectory
    cases isDirectory
  · rw [innerParts_cut] at isLast
    obtain ⟨directory, isParent, split⟩ := parent_of_last isLast
    exact ⟨directory, name, isParent, split⟩

/-- The directory of a file, and the directory of its normal form. -/
theorem parents_of_resolved {start resolved : String} {content : ByteArray}
    (starts : StartsAt workingDirectory path start) (absolute : isAbsolute (join start path) = true)
    (isResolved : resolveDots (join start path) = .ok resolved)
    (located : files.locate workingDirectory path = .ok (.file content)) :
    ∃ directory name names, parent? path = some directory ∧
      turns path.toList = turns directory.toList ++ [.name name] ∧
      reduce [] (turns start.toList ++ turns directory.toList) = some names ∧
      reduce [] (turns (ofNames true names.reverse).toList) = some names ∧
      parent? resolved = some (ofNames true names.reverse) := by
  obtain ⟨directory, name, isParent, split⟩ := parent_of_file located
  obtain ⟨all, reduced, rfl⟩ := resolveDots_eq_ok.mp isResolved
  have areNames := isName_of_reduce reduced
  rw [starts.turns_join, split, ← List.append_assoc, reduce_append] at reduced
  obtain ⟨names, above, same⟩ := Option.bind_eq_some_iff.mp reduced
  obtain rfl := Option.some.inj same
  have inDirectory : ∀ other ∈ names.reverse, IsName other := fun other member =>
    areNames other (List.mem_cons_of_mem _ (List.mem_reverse.mp member))
  refine ⟨directory, name, names, isParent, split, above, ?_, ?_⟩
  · rw [reduce_ofNames inDirectory, List.reverse_reverse]
  · rw [absolute, List.reverse_cons]
    exact parent_ofNames inDirectory (areNames name List.mem_cons_self)

theorem locate_of_readText {text : String}
    (succeeded : files.readText workingDirectory path = .ok text) :
    ∃ content, files.locate workingDirectory path = .ok (.file content) := by
  obtain ⟨entry, located, succeeded⟩ := bind_eq_ok.mp succeeded
  cases entry with
  | directory => cases succeeded
  | file content => exact ⟨content, located⟩

end Locate

end LayeredConfig.FileSystem
