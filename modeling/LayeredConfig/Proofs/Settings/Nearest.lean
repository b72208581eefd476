/-
This file says in which directory the settings files of a project are found.

Going up from a directory, each step takes the last part off its path, so there are no more steps
than the path is long, and from an absolute path they end at the root. The search looks for both
files in each directory on the way and stops at the first one that has any: it reads what is there
and nothing above. So what lies further up makes no difference, whether it could be read or not.
-/

import LayeredConfig.Proofs.Path.Climbing
import LayeredConfig.Settings.Discovery
import Mathlib.Data.List.Infix

namespace LayeredConfig

open LayeredConfig.Path

/-! ### The way up -/

namespace Path

/-- A directory and those over it, the nearest first. -/
def upwards (directory : String) : List String :=
  match _ : parent? directory with
  | some above => directory :: upwards above
  | none => [directory]
termination_by directory.length
decreasing_by exact length_parent_lt ‹_›

variable {directory above : String}

theorem upwards_of_parent (isAbove : parent? directory = some above) :
    upwards directory = directory :: upwards above := by
  rw [upwards]
  split
  · next other isOther =>
    obtain rfl := Option.some.inj (isAbove.symm.trans isOther)
    rfl
  · next none => cases isAbove.symm.trans none

theorem upwards_of_no_parent (noParent : parent? directory = none) :
    upwards directory = [directory] := by
  rw [upwards]
  split
  · next isOther => cases noParent.symm.trans isOther
  · rfl

/-- The parts of an absolute path are the root and its turns. -/
theorem parts_of_absolute (absolute : isAbsolute directory = true) :
    parts directory = .root :: turns directory.toList := by
  rcases parts_cases directory with ⟨_, same⟩ | ⟨relative, _⟩
  · exact same
  · rw [absolute] at relative
    cases relative

/-- The directories over an absolute one are those of its leading parts, up to the root. -/
theorem parts_upwards (absolute : isAbsolute directory = true) :
    (upwards directory).map parts = (turns directory.toList).inits.reverse.map (.root :: ·) := by
  fun_induction upwards directory with
  | case1 directory above isAbove inductionHypothesis =>
    obtain ⟨turn, split⟩ := turns_of_parent absolute isAbove
    rw [List.map_cons, parts_of_absolute absolute,
      inductionHypothesis (isAbsolute_parent absolute isAbove), split, List.inits_append,
      List.reverse_append, List.map_append]
    rfl
  | case2 directory noParent =>
    rw [List.map_singleton, parts_of_absolute absolute, turns_of_no_parent noParent]
    rfl

end Path

namespace SettingsFile

variable {world : World} {directory : String}

/-! ### The files in one directory -/

/-- The names and ranks of the settings files of a project that are in a directory. -/
def heldIn (world : World) (directory : String) : List (String × Nat) :=
  [(projectName, 2), (localName, 3)].filter fun file =>
    world.pathExists (Path.join directory file.1)

/-- Reads one of the files in a directory. -/
def readIn (world : World) (directory : String) (file : String × Nat) :
    Except Error SettingsFile :=
  (load world (Path.join directory file.1)).map fun settings =>
    ⟨Path.join directory file.1, file.2, settings⟩

theorem loadIn_eq (world : World) (directory name : String) (rank : Nat) :
    loadIn world directory name rank =
      ([(name, rank)].filter fun file => world.pathExists (Path.join directory file.1)).mapM
        (readIn world directory) := by
  rw [loadIn, List.filter_singleton]
  cases world.pathExists (Path.join directory name) with
  | true =>
    rw [if_pos rfl, cond_true, List.mapM_cons, readIn]
    cases load world (Path.join directory name) <;> rfl
  | false => rfl

/-- The files that are in a directory are read one after the other. -/
theorem projectFilesIn_eq (world : World) (directory : String) :
    projectFilesIn world directory = (heldIn world directory).mapM (readIn world directory) := by
  have both : heldIn world directory =
      [(projectName, 2)].filter (fun file => world.pathExists (Path.join directory file.1)) ++
        [(localName, 3)].filter fun file => world.pathExists (Path.join directory file.1) :=
    List.filter_append [(projectName, 2)] [(localName, 3)]
  rw [projectFilesIn, loadIn_eq, loadIn_eq, both, List.mapM_append]

theorem length_of_projectFilesIn {files : List SettingsFile}
    (areFiles : projectFilesIn world directory = .ok files) :
    (heldIn world directory).length = files.length := by
  rw [projectFilesIn_eq] at areFiles
  exact (mapM_eq_ok.mp areFiles).length_eq

theorem projectFilesIn_of_nil (nothing : heldIn world directory = []) :
    projectFilesIn world directory = .ok [] := by
  rw [projectFilesIn_eq, nothing]
  rfl

/-- Where all files of a directory can be read, these are its files. -/
theorem projectFilesIn_of_load {settings : String → Settings}
    (loads : ∀ file ∈ heldIn world directory,
      load world (Path.join directory file.1) = .ok (settings file.1)) :
    projectFilesIn world directory = .ok ((heldIn world directory).map fun file =>
      ⟨Path.join directory file.1, file.2, settings file.1⟩) := by
  rw [projectFilesIn_eq, mapM_eq_ok, List.forall₂_map_right_iff, List.forall₂_same]
  intro file member
  rw [readIn, loads file member]
  rfl

/-- What a file comes to is decided by its text and by the home directory. -/
theorem load_congr {other : World} {path : String} (sameHome : other.home = world.home)
    (sameText : other.readText path = world.readText path) : load other path = load world path := by
  rw [load, load, sameHome, sameText]

theorem projectFilesIn_congr {other : World} (sameHome : other.home = world.home)
    (sameHeld : heldIn other directory = heldIn world directory)
    (sameText : ∀ file ∈ heldIn world directory,
      other.readText (Path.join directory file.1) = world.readText (Path.join directory file.1)) :
    projectFilesIn other directory = projectFilesIn world directory := by
  rw [projectFilesIn_eq, projectFilesIn_eq, sameHeld]
  refine mapM_congr fun file member => ?_
  rw [readIn, readIn, load_congr sameHome (sameText file member)]

/-! ### The search -/

/-- The settings files in the first of some directories that has any. -/
def filesInFirst (world : World) : List String → Except Error (List SettingsFile)
  | [] => .ok []
  | directory :: others => do
    let found ← projectFilesIn world directory
    if found.isEmpty then filesInFirst world others else return found

theorem filesInFirst_of_nil {others : List String} (nothing : heldIn world directory = []) :
    filesInFirst world (directory :: others) = filesInFirst world others := by
  rw [filesInFirst, projectFilesIn_of_nil nothing]
  rfl

/-- Where there are files, the search ends, be it with them or with an error. -/
theorem filesInFirst_of_held {others : List String} (held : heldIn world directory ≠ []) :
    filesInFirst world (directory :: others) = projectFilesIn world directory := by
  rw [filesInFirst]
  cases areFiles : projectFilesIn world directory with
  | error fault => rfl
  | ok files =>
    have filled : files ≠ [] := by
      rintro rfl
      exact held (List.eq_nil_of_length_eq_zero (length_of_projectFilesIn areFiles))
    exact if_neg (mt List.isEmpty_iff.mp filled)

theorem filesInFirst_singleton (world : World) (directory : String) :
    filesInFirst world [directory] = projectFilesIn world directory := by
  by_cases nothing : heldIn world directory = []
  · rw [filesInFirst_of_nil nothing, projectFilesIn_of_nil nothing]
    rfl
  · exact filesInFirst_of_held nothing

theorem filesInFirst_append {passed others : List String}
    (nothing : ∀ above ∈ passed, heldIn world above = []) :
    filesInFirst world (passed ++ others) = filesInFirst world others := by
  induction passed with
  | nil => rfl
  | cons directory passed inductionHypothesis =>
    obtain ⟨here, later⟩ := List.forall_mem_cons.mp nothing
    rw [List.cons_append, filesInFirst_of_nil here, inductionHypothesis later]

/-- The steps of the search are enough to come to the root, however many more there are. -/
theorem discoverFrom_eq {above : Nat} (enough : directory.length ≤ above) :
    discoverFrom world directory above = filesInFirst world (upwards directory) := by
  induction above generalizing directory with
  | zero =>
    cases isParent : parent? directory with
    | none => rw [upwards_of_no_parent isParent, filesInFirst_singleton, discoverFrom]
    | some parent =>
      have shorter := length_parent_lt isParent
      omega
  | succ above inductionHypothesis =>
    rw [discoverFrom]
    cases isParent : parent? directory with
    | none =>
      rw [upwards_of_no_parent isParent]
      rfl
    | some parent =>
      have shorter := length_parent_lt isParent
      have later : discoverFrom world parent above = filesInFirst world (upwards parent) :=
        inductionHypothesis (by omega)
      rw [upwards_of_parent isParent, filesInFirst, ← later]

theorem discover_of_nearest {passed further : List String} {nearest : String}
    (way : upwards directory = passed ++ nearest :: further)
    (nothing : ∀ above ∈ passed, heldIn world above = []) (held : heldIn world nearest ≠ []) :
    discover world directory = projectFilesIn world nearest := by
  rw [discover, discoverFrom_eq (Nat.le_refl _), way, filesInFirst_append nothing,
    filesInFirst_of_held held]

/-- The way up from an absolute directory ends at the root, and the search has steps enough for it.
If no directory on the way has a settings file of the project, nothing is found. Otherwise it finds
the files of the nearest one that has any, and nothing else matters: a world in which the same files
exist up to this directory, and those in it have the same texts, gives the same. -/
theorem discover_nearest (world : World) {directory : String}
    (absolute : isAbsolute directory = true) :
    (∀ above, directory.length ≤ above →
        discoverFrom world directory above = discover world directory) ∧
      (upwards directory).map parts =
        (turns directory.toList).inits.reverse.map (.root :: ·) ∧
      ((∀ above ∈ upwards directory, heldIn world above = []) →
        discover world directory = .ok []) ∧
      ∀ passed nearest further, upwards directory = passed ++ nearest :: further →
        (∀ above ∈ passed, heldIn world above = []) → heldIn world nearest ≠ [] →
        (∀ settings : String → Settings,
          (∀ file ∈ heldIn world nearest,
            load world (Path.join nearest file.1) = .ok (settings file.1)) →
          discover world directory = .ok ((heldIn world nearest).map fun file =>
            ⟨Path.join nearest file.1, file.2, settings file.1⟩)) ∧
        ∀ other : World, other.home = world.home →
          (∀ above ∈ passed ++ [nearest], heldIn other above = heldIn world above) →
          (∀ file ∈ heldIn world nearest, other.readText (Path.join nearest file.1) =
            world.readText (Path.join nearest file.1)) →
          discover other directory = discover world directory := by
  refine ⟨fun above enough => ?_, parts_upwards absolute, fun nothing => ?_, ?_⟩
  · rw [discover, discoverFrom_eq enough, discoverFrom_eq (Nat.le_refl _)]
  · rw [discover, discoverFrom_eq (Nat.le_refl _), ← List.append_nil (upwards directory),
      filesInFirst_append nothing]
    rfl
  · intro passed nearest further way nothing held
    have found := discover_of_nearest way nothing held
    refine ⟨fun settings loads => found.trans (projectFilesIn_of_load loads), ?_⟩
    intro other sameHome sameHeld sameText
    obtain ⟨samePassed, sameNearest⟩ := List.forall_mem_append.mp sameHeld
    have sameNearest := List.forall_mem_singleton.mp sameNearest
    have otherNothing : ∀ above ∈ passed, heldIn other above = [] := fun above member =>
      (samePassed above member).trans (nothing above member)
    rw [found, discover_of_nearest way otherNothing (sameNearest ▸ held),
      projectFilesIn_congr sameHome sameNearest sameText]

/-- A project in `/w/p` within one in `/w`. -/
def nestedWorld (outer : String) : World where
  files := (((FileSystem.empty.addFile ["w", "stratum.yaml"] outer.toUTF8).addFile
      ["w", "p", "stratum.local.yaml"] "imports: [p]\n".toUTF8).addFile
      ["w", "p", "sub", "app.yaml"] "".toUTF8)
  workingDirectory := some "/"
  home := "/root"
  environment := []

/-- The outer project makes no difference to the inner one, whatever is in its file. -/
theorem discover_nearest_nestedWorld :
    (load (nestedWorld "imports: [") "/w/stratum.yaml").toOption = none ∧
      discover (nestedWorld "imports: [") "/w/p/sub" =
        .ok [⟨"/w/p/stratum.local.yaml", 3, { Settings.empty with imports := some ["p"] }⟩] ∧
      discover (nestedWorld "imports: [w]") "/w/p/sub" =
        discover (nestedWorld "imports: [") "/w/p/sub" := by
  have way : upwards "/w/p/sub" = ["/w/p/sub"] ++ "/w/p" :: ["/w", "/"] := by
    rw [upwards_of_parent (by decide : parent? "/w/p/sub" = some "/w/p"),
      upwards_of_parent (by decide : parent? "/w/p" = some "/w"),
      upwards_of_parent (by decide : parent? "/w" = some "/"),
      upwards_of_no_parent (by decide : parent? "/" = none)]
    rfl
  have held : heldIn (nestedWorld "imports: [") "/w/p" = [(localName, 3)] := by decide +kernel
  have loads : (load (nestedWorld "imports: [") "/w/p/stratum.local.yaml").toOption =
      some { Settings.empty with imports := some ["p"] } := by decide +kernel
  obtain ⟨found, indifferent⟩ :=
    (discover_nearest (nestedWorld "imports: [") (by decide : isAbsolute "/w/p/sub" = true)).2.2.2
      _ _ _ way (by decide +kernel) (by rw [held]; nofun)
  refine ⟨by decide +kernel, ?_, indifferent (nestedWorld "imports: [w]") rfl ?_ ?_⟩
  · have reads : ∀ file ∈ heldIn (nestedWorld "imports: [") "/w/p",
        load (nestedWorld "imports: [") (Path.join "/w/p" file.1) =
          .ok { Settings.empty with imports := some ["p"] } := by
      intro file member
      rw [held] at member
      obtain rfl := List.mem_singleton.mp member
      exact ok_of_toOption loads
    rw [found (fun _ => { Settings.empty with imports := some ["p"] }) reads, held]
    decide +kernel
  · decide +kernel
  · decide +kernel

end SettingsFile

end LayeredConfig
