/-
This file says which settings files are read and pass the check.

The check asks nothing of directories but that they are not empty, and reading a file changes
nothing but them. So whether a file is accepted depends on its directory only through the
directories that are written in the file, each of which must come to something when it is read from
there. A file without a directory is an exception: what is written in it is not read from anywhere.
-/

import LayeredConfig.Proofs.Settings.Anchoring

namespace LayeredConfig

open LayeredConfig.Path

namespace Settings

variable {settings : Settings}

/-! ### The check -/

/-- The settings are read and pass the check. -/
def Accepted (outcome : Except Error Settings) : Prop :=
  ∃ settings, outcome = .ok settings ∧ settings.check = .ok ()

theorem not_accepted_of_error {cause : Error} : ¬Accepted (.error cause) := by
  rintro ⟨_, same, _⟩
  cases same

/-- The base directory and the resource roots, as far as there are any. -/
def directories (settings : Settings) : List String :=
  settings.baseDirectory.toList ++ settings.rootList

/-- What the check asks of settings apart from their directories. -/
structure WellNamed (settings : Settings) : Prop where
  profiles : ∀ profiles ∈ settings.profiles, checkProfiles profiles = .ok ()
  imports : checkImports [] settings.importList.zipIdx = .ok ()

theorem checkItems_eq_ok {field : String} {fault? : String → Option String}
    {items : List (String × Nat)} :
    checkItems field fault? items = .ok () ↔ ∀ item ∈ items, fault? item.1 = none := by
  induction items with
  | nil => exact ⟨fun _ => nofun, fun _ => rfl⟩
  | cons item rest inductionHypothesis =>
    obtain ⟨text, index⟩ := item
    rw [checkItems, List.forall_mem_cons]
    cases isFault : fault? text with
    | none => exact inductionHypothesis.trans ⟨fun rest => ⟨rfl, rest⟩, fun both => both.2⟩
    | some reason => exact ⟨nofun, fun both => nomatch both.1⟩

theorem forall_mem_some {Value : Type} {value : Value} {asked : Value → Prop} :
    (∀ other ∈ some value, asked other) ↔ asked value :=
  ⟨fun each => each value rfl, fun isAsked _ same => Option.some.inj same ▸ isAsked⟩

theorem checkList_eq_ok {field : String} {fault? : String → Option String}
    {list : Option (List String)} :
    checkList field fault? list = .ok () ↔ ∀ items ∈ list, ∀ item ∈ items, fault? item = none := by
  cases list with
  | none => exact ⟨fun _ => nofun, fun _ => rfl⟩
  | some items =>
    have each : (∀ item ∈ items.zipIdx.map Prod.fst, fault? item = none) ↔
        ∀ item ∈ items.zipIdx, fault? item.1 = none := List.forall_mem_map
    rw [List.zipIdx_map_fst] at each
    rw [forall_mem_some]
    exact checkItems_eq_ok.trans each.symm

theorem pathFault_eq_none {path : String} : pathFault? path = none ↔ path ≠ "" := by
  rw [pathFault?]
  split
  · next empty => exact ⟨nofun, fun filled => absurd empty filled⟩
  · next filled => exact ⟨fun _ => filled, fun _ => rfl⟩

theorem checkBaseDirectory_eq_ok {baseDirectory : Option String} :
    checkBaseDirectory baseDirectory = .ok () ↔ ∀ path ∈ baseDirectory, path ≠ "" := by
  cases baseDirectory with
  | none => exact ⟨fun _ => nofun, fun _ => rfl⟩
  | some path =>
    rw [forall_mem_some, ← pathFault_eq_none, checkBaseDirectory]
    cases pathFault? path with
    | none => exact ⟨fun _ => rfl, fun _ => rfl⟩
    | some reason => exact ⟨nofun, nofun⟩

theorem forall_mem_directories {asked : String → Prop} :
    (∀ path ∈ settings.directories, asked path) ↔
      (∀ path ∈ settings.baseDirectory, asked path) ∧
        ∀ paths ∈ settings.roots, ∀ path ∈ paths, asked path := by
  have roots : (∀ path ∈ settings.rootList, asked path) ↔
      ∀ paths ∈ settings.roots, ∀ path ∈ paths, asked path := by
    rw [rootList]
    cases settings.roots with
    | none => exact ⟨fun _ => nofun, fun _ => nofun⟩
    | some paths =>
      rw [forall_mem_some]
      rfl
  rw [directories, List.forall_mem_append, roots]
  simp only [Option.mem_toList]
  rfl

/-- The check asks that no directory is empty, and some things that have nothing to do with
directories. -/
theorem check_eq_ok :
    settings.check = .ok () ↔ settings.WellNamed ∧ ∀ path ∈ settings.directories, path ≠ "" := by
  have inOrder : settings.check = (do
      settings.profiles.forM checkProfiles
      checkBaseDirectory settings.baseDirectory
      checkList "resource_roots" pathFault? settings.roots
      checkImports [] settings.importList.zipIdx) := by
    unfold check
    cases settings.profiles <;> rfl
  have profiles : settings.profiles.forM checkProfiles = .ok () ↔
      ∀ profiles ∈ settings.profiles, checkProfiles profiles = .ok () := by
    cases settings.profiles with
    | none => exact ⟨fun _ => nofun, fun _ => rfl⟩
    | some profiles =>
      rw [forall_mem_some]
      rfl
  have roots : checkList "resource_roots" pathFault? settings.roots = .ok () ↔
      ∀ paths ∈ settings.roots, ∀ path ∈ paths, path ≠ "" := by
    simp only [checkList_eq_ok, pathFault_eq_none]
  have andThen {first second : Except Error Unit} :
      (do first; second) = .ok () ↔ first = .ok () ∧ second = .ok () :=
    bind_eq_ok.trans ⟨fun ⟨_, passes⟩ => passes, fun passes => ⟨(), passes⟩⟩
  rw [inOrder, andThen, andThen, andThen, profiles, checkBaseDirectory_eq_ok, roots,
    forall_mem_directories]
  exact ⟨fun ⟨profiles, base, roots, imports⟩ => ⟨⟨profiles, imports⟩, base, roots⟩,
    fun ⟨named, base, roots⟩ => ⟨named.profiles, base, roots, named.imports⟩⟩

/-! ### Directories that are read from a directory -/

open SettingsFile

/-- A path comes to something when it is read from a directory. -/
def ComesTo (home directory path : String) : Prop :=
  ∃ result, anchorPath home directory path = .ok result ∧ result ≠ ""

theorem anchorPaths_filled {home directory : String} {paths : List String} :
    (∃ results, anchorPaths home directory paths = .ok results ∧ ∀ result ∈ results, result ≠ "") ↔
      ∀ path ∈ paths, ComesTo home directory path := by
  induction paths with
  | nil => exact ⟨fun _ => nofun, fun _ => ⟨[], rfl, nofun⟩⟩
  | cons path rest inductionHypothesis =>
    rw [List.forall_mem_cons, ← inductionHypothesis]
    constructor
    · rintro ⟨results, anchored, filled⟩
      obtain ⟨first, isFirst, anchored⟩ := bind_eq_ok.mp anchored
      obtain ⟨others, areOthers, anchored⟩ := bind_eq_ok.mp anchored
      cases anchored
      rw [List.forall_mem_cons] at filled
      exact ⟨⟨first, isFirst, filled.1⟩, others, areOthers, filled.2⟩
    · rintro ⟨⟨first, isFirst, filled⟩, others, areOthers, othersFilled⟩
      refine ⟨first :: others, ?_, List.forall_mem_cons.mpr ⟨filled, othersFilled⟩⟩
      rw [anchorPaths, isFirst, areOthers]
      rfl

/-- A part of settings that may be left out is accepted if it is when it is there. -/
theorem mapM_accepted {Written Result : Type} {read : Written → Except Error Result}
    {accepted : Result → Prop} {asked : Written → Prop}
    (each : ∀ written, (∃ result, read written = .ok result ∧ accepted result) ↔ asked written)
    (part : Option Written) :
    (∃ results, part.mapM read = .ok results ∧ ∀ result ∈ results, accepted result) ↔
      ∀ written ∈ part, asked written := by
  cases part with
  | none => exact ⟨fun _ => nofun, fun _ => ⟨none, rfl, nofun⟩⟩
  | some written =>
    rw [forall_mem_some, ← each]
    constructor
    · rintro ⟨results, isRead, areAccepted⟩
      obtain ⟨result, isResult, rfl⟩ := map_eq_ok.mp isRead
      exact ⟨result, isResult, areAccepted result rfl⟩
    · rintro ⟨result, isResult, isAccepted⟩
      exact ⟨some result, map_eq_ok.mpr ⟨result, isResult, rfl⟩, forall_mem_some.mpr isAccepted⟩

/-- Settings are accepted with a directory if each path in them comes to something from there. -/
theorem accepted_anchor {home directory : String} (filled : directory ≠ "") :
    Accepted (anchor home directory settings) ↔
      settings.WellNamed ∧ ∀ path ∈ settings.directories, ComesTo home directory path := by
  have base : (∃ results, settings.baseDirectory.mapM (anchorPath home directory) = .ok results ∧
      ∀ result ∈ results, result ≠ "") ↔
      ∀ path ∈ settings.baseDirectory, ComesTo home directory path :=
    mapM_accepted (fun _ => Iff.rfl) settings.baseDirectory
  have roots : (∃ results, settings.roots.mapM (anchorPaths home directory) = .ok results ∧
      ∀ paths ∈ results, ∀ path ∈ paths, path ≠ "") ↔
      ∀ paths ∈ settings.roots, ∀ path ∈ paths, ComesTo home directory path :=
    mapM_accepted (fun _ => anchorPaths_filled) settings.roots
  rw [forall_mem_directories, ← base, ← roots, anchor_eq filled]
  constructor
  · rintro ⟨result, anchored, checked⟩
    obtain ⟨baseDirectory, isBase, anchored⟩ := bind_eq_ok.mp anchored
    obtain ⟨roots, areRoots, anchored⟩ := bind_eq_ok.mp anchored
    cases anchored
    obtain ⟨named, filled⟩ := check_eq_ok.mp checked
    obtain ⟨baseFilled, rootsFilled⟩ := forall_mem_directories.mp filled
    exact ⟨⟨named.profiles, named.imports⟩, ⟨baseDirectory, isBase, baseFilled⟩,
      roots, areRoots, rootsFilled⟩
  · rintro ⟨named, ⟨baseDirectory, isBase, baseFilled⟩, roots, areRoots, rootsFilled⟩
    refine ⟨{ settings with baseDirectory, roots }, ?_, check_eq_ok.mpr
      ⟨⟨named.profiles, named.imports⟩, forall_mem_directories.mpr ⟨baseFilled, rootsFilled⟩⟩⟩
    rw [isBase, areRoots]
    rfl

/-! ### Files -/

/-- A path in a settings file of a directory is fit: it comes to something from there, or it is not
empty and there is nothing to read it from. -/
def Fits (home directory path : String) : Prop :=
  if directory = "" then path ≠ "" else ComesTo home directory path

theorem not_accepted_of_unreadable {world : World} {file : String} {fault : FileFault}
    (unreadable : world.readText file = .error fault) : ¬Accepted (load world file) := by
  rw [load, unreadable]
  exact not_accepted_of_error

/-- A settings file is accepted if its text is that of settings in which all paths are fit. -/
theorem accepted_load {world : World} {file text directory : String}
    (isText : world.readText file = .ok text) (isParent : parent? file = some directory) :
    Accepted (load world file) ↔ ∃ stored, ofText text = .ok stored ∧ stored.WellNamed ∧
      ∀ path ∈ stored.directories, Fits world.home directory path := by
  rw [load, isText]
  dsimp only
  cases stored : ofText text with
  | error fault =>
    refine iff_of_false not_accepted_of_error ?_
    rintro ⟨_, same, _⟩
    cases same
  | ok settings =>
    rw [isParent, exists_ok_and]
    unfold Fits
    dsimp only
    by_cases empty : directory = ""
    · simp only [if_pos empty]
      rw [← check_eq_ok, anchor, if_pos empty, Accepted, exists_ok_and]
    · simp only [if_neg empty]
      exact accepted_anchor empty

end Settings

end LayeredConfig
