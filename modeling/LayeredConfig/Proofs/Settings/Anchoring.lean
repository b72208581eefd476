/-
This file says where the base directory of assembled settings is absolute.

A settings file that is found, or is named by an absolute path, has an absolute directory, and from
there its paths are read. What the environment and the caller give is taken as it is written. So the
base directory is absolute unless one of these two gives a relative one, or a directory in which
files are looked for is relative itself.
-/

import LayeredConfig.Proofs.FileSystem.Walk
import LayeredConfig.Settings.Assembly

namespace LayeredConfig

open LayeredConfig.Path

/-! ### Layers of settings -/

namespace Settings

/-- The base directory is absolute, if there is one. -/
def Anchored (settings : Settings) : Prop :=
  ∀ path ∈ settings.baseDirectory, isAbsolute path = true

theorem anchored_empty : Settings.empty.Anchored :=
  nofun

/-- A base directory that comes before another one, if it is there. -/
theorem absolute_of_or {upper lower : Option String}
    (above : ∀ path ∈ upper, isAbsolute path = true)
    (below : ∀ path ∈ lower, isAbsolute path = true) :
    ∀ path ∈ upper.or lower, isAbsolute path = true := by
  cases upper with
  | none => exact below
  | some path => exact above

theorem Anchored.overlay {lower upper : Settings} (below : lower.Anchored)
    (above : upper.Anchored) : (lower.overlay upper).Anchored :=
  absolute_of_or above below

theorem Anchored.foldl {lowest : Settings} {layers : List Settings} (below : lowest.Anchored)
    (above : ∀ layer ∈ layers, layer.Anchored) :
    (layers.foldl Settings.overlay lowest).Anchored := by
  induction layers generalizing lowest with
  | nil => exact below
  | cons layer rest inductionHypothesis =>
    exact inductionHypothesis (below.overlay (above layer List.mem_cons_self))
      fun other member => above other (List.mem_cons_of_mem _ member)

theorem Anchored.withEnvironment {world : World} {settings result : Settings}
    (below : settings.Anchored)
    (above : ∀ path ∈ filled? world "STRATUM_BASE_DIR", isAbsolute path = true)
    (laid : settings.withEnvironment world = .ok result) : result.Anchored := by
  unfold Settings.withEnvironment at laid
  split at laid
  · cases laid
    exact absolute_of_or above below
  · obtain ⟨policy, _, laid⟩ := bind_eq_ok.mp laid
    cases laid
    exact absolute_of_or above below

end Settings

/-! ### Settings files -/

namespace SettingsFile

variable {world : World} {settings : Settings}

theorem absolute_of_anchorPath {home directory path result : String}
    (absolute : isAbsolute directory = true)
    (isAnchored : anchorPath home directory path = .ok result) : isAbsolute result = true := by
  obtain ⟨_, _, isAnchored⟩ := bind_eq_ok.mp isAnchored
  exact (normal_of_absolutize absolute isAnchored).absolute

/-- Both kinds of paths in settings are read from the directory, if there are any. -/
theorem anchor_eq {home directory : String} (filled : directory ≠ "") :
    anchor home directory settings = (do
      let baseDirectory ← settings.baseDirectory.mapM (anchorPath home directory)
      let roots ← settings.roots.mapM (anchorPaths home directory)
      return { settings with baseDirectory, roots }) := by
  rw [anchor, if_neg filled]
  cases settings.baseDirectory <;> cases settings.roots <;> rfl

/-- What is read from an absolute directory is anchored. -/
theorem anchored_of_anchor {home directory : String} {result : Settings}
    (absolute : isAbsolute directory = true)
    (isAnchored : anchor home directory settings = .ok result) : result.Anchored := by
  have filled : directory ≠ "" := by
    rintro rfl
    cases absolute
  rw [anchor_eq filled] at isAnchored
  obtain ⟨baseDirectory, isBase, isAnchored⟩ := bind_eq_ok.mp isAnchored
  obtain ⟨roots, _, isAnchored⟩ := bind_eq_ok.mp isAnchored
  cases isAnchored
  intro path isPath
  obtain rfl : baseDirectory = some path := isPath
  cases written : settings.baseDirectory with
  | none =>
    rw [written] at isBase
    cases isBase
  | some own =>
    rw [written] at isBase
    obtain ⟨_, anchored, same⟩ := map_eq_ok.mp isBase
    exact Option.some.inj same ▸ absolute_of_anchorPath absolute anchored

/-- The settings in a file of an absolute path are anchored. -/
theorem anchored_of_load {path : String} (absolute : isAbsolute path = true)
    (loaded : load world path = .ok settings) : settings.Anchored := by
  unfold load at loaded
  split at loaded
  · cases loaded
  · next text isText =>
    split at loaded
    · cases loaded
    · obtain ⟨_, located⟩ := FileSystem.locate_of_readText isText
      obtain ⟨directory, _, isParent, _⟩ := FileSystem.parent_of_file located
      rw [isParent] at loaded
      exact anchored_of_anchor (isAbsolute_parent absolute isParent) loaded

/-- The settings of all files are anchored. -/
def AllAnchored (files : List SettingsFile) : Prop :=
  ∀ file ∈ files, file.settings.Anchored

theorem AllAnchored.append {first second : List SettingsFile} (firstAnchored : AllAnchored first)
    (secondAnchored : AllAnchored second) : AllAnchored (first ++ second) :=
  fun file member => (List.mem_append.mp member).elim (firstAnchored file) (secondAnchored file)

theorem mem_of_loadIn {directory name : String} {rank : Nat} {files : List SettingsFile}
    {file : SettingsFile} (loaded : loadIn world directory name rank = .ok files)
    (member : file ∈ files) :
    ∃ settings, load world (Path.join directory name) = .ok settings ∧
      file = ⟨Path.join directory name, rank, settings⟩ := by
  unfold loadIn at loaded
  dsimp only at loaded
  split at loaded
  · obtain ⟨settings, isLoaded, rfl⟩ := map_eq_ok.mp loaded
    exact ⟨settings, isLoaded, List.mem_singleton.mp member⟩
  · cases loaded
    cases member

theorem anchored_of_loadIn {directory name : String} {rank : Nat} {files : List SettingsFile}
    (absolute : isAbsolute directory = true)
    (loaded : loadIn world directory name rank = .ok files) : AllAnchored files := by
  intro file member
  obtain ⟨settings, isLoaded, rfl⟩ := mem_of_loadIn loaded member
  exact anchored_of_load (isAbsolute_join absolute name) isLoaded

theorem anchored_of_projectFilesIn {directory : String} {files : List SettingsFile}
    (absolute : isAbsolute directory = true)
    (loaded : projectFilesIn world directory = .ok files) : AllAnchored files := by
  obtain ⟨shared, areShared, loaded⟩ := bind_eq_ok.mp loaded
  obtain ⟨personal, arePersonal, loaded⟩ := bind_eq_ok.mp loaded
  cases loaded
  exact (anchored_of_loadIn absolute areShared).append (anchored_of_loadIn absolute arePersonal)

/-- The files of a project stand in one directory, if there are any, and the search from an absolute
directory passes through absolute ones only. -/
theorem directory_of_discoverFrom {directory : String} {above : Nat} {files : List SettingsFile}
    (found : discoverFrom world directory above = .ok files) :
    files = [] ∨ ∃ nearest, (isAbsolute directory = true → isAbsolute nearest = true) ∧
      projectFilesIn world nearest = .ok files := by
  induction above generalizing directory with
  | zero => exact .inr ⟨directory, id, found⟩
  | succ above inductionHypothesis =>
    obtain ⟨here, isHere, found⟩ := bind_eq_ok.mp found
    split at found
    · split at found
      · next parent isParent =>
        refine (inductionHypothesis found).imp_right ?_
        rintro ⟨nearest, isAbove, areFiles⟩
        exact ⟨nearest, fun absolute => isAbove (isAbsolute_parent absolute isParent), areFiles⟩
      · cases found
        exact .inl rfl
    · cases found
      exact .inr ⟨directory, id, isHere⟩

theorem anchored_of_discoverFrom {directory : String} {above : Nat} {files : List SettingsFile}
    (absolute : isAbsolute directory = true)
    (found : discoverFrom world directory above = .ok files) : AllAnchored files := by
  rcases directory_of_discoverFrom found with rfl | ⟨nearest, isAbove, areFiles⟩
  · exact List.forall_mem_nil _
  · exact anchored_of_projectFilesIn (isAbove absolute) areFiles

theorem anchored_of_userFiles {settingsDirectory : Option String} {files : List SettingsFile}
    (home : isAbsolute world.home = true)
    (absolute : ∀ directory ∈ settingsDirectory, isAbsolute directory = true)
    (loaded : userFiles world settingsDirectory = .ok files) : AllAnchored files := by
  refine anchored_of_loadIn ?_ loaded
  cases settingsDirectory with
  | none => exact isAbsolute_join home ".stratum"
  | some directory => exact absolute directory rfl

end SettingsFile

/-! ### Plans -/

namespace SettingsPlan

/-- All that a plan takes base directories from gives absolute ones: files of absolute paths, the
environment, and the settings laid over these. -/
structure Anchored (plan : SettingsPlan) (world : World) : Prop where
  home : isAbsolute world.home = true
  start : ∀ directory, plan.startDirectory world = .ok directory → isAbsolute directory = true
  settingsDirectory : ∀ directory ∈ plan.settingsDirectory, isAbsolute directory = true
  settingsFile : ∀ path ∈ plan.settingsFile, isAbsolute path = true
  environment : plan.skipEnvironment = false →
    ∀ path ∈ Settings.filled? world "STRATUM_BASE_DIR", isAbsolute path = true
  overrides : ∀ settings ∈ plan.overrides, settings.Anchored

variable {plan : SettingsPlan} {world : World}

theorem Anchored.files {files : List SettingsFile} (anchored : plan.Anchored world)
    (loaded : plan.files world = .ok files) : SettingsFile.AllAnchored files := by
  unfold SettingsPlan.files at loaded
  split at loaded
  · cases loaded
    exact nofun
  · split at loaded
    · next path isFile =>
      obtain ⟨settings, isLoaded, rfl⟩ := map_eq_ok.mp loaded
      intro file member
      rw [List.mem_singleton.mp member]
      exact SettingsFile.anchored_of_load (anchored.settingsFile path isFile) isLoaded
    · obtain ⟨directory, isStart, loaded⟩ := bind_eq_ok.mp loaded
      obtain ⟨user, areUser, loaded⟩ := bind_eq_ok.mp loaded
      obtain ⟨project, areProject, loaded⟩ := bind_eq_ok.mp loaded
      cases loaded
      have userAnchored :=
        SettingsFile.anchored_of_userFiles anchored.home anchored.settingsDirectory areUser
      exact userAnchored.append
        (SettingsFile.anchored_of_discoverFrom (anchored.start directory isStart) areProject)

/-- What the files of a plan and the environment come to. -/
def settingsBelow (plan : SettingsPlan) (world : World) (files : List SettingsFile) :
    Except Error Settings :=
  if plan.skipEnvironment then .ok (Settings.overlayAll (files.map (·.settings)))
  else (Settings.overlayAll (files.map (·.settings))).withEnvironment world

/-- Files, environment and overrides are laid over each other, and what comes out is checked. -/
theorem assemble_eq : plan.assemble world = (do
    let files ← plan.files world
    let below ← plan.settingsBelow world files
    let settings := plan.overrides.foldl Settings.overlay below
    settings.check
    return settings) := by
  unfold assemble settingsBelow
  cases plan.skipEnvironment <;> rfl

/-- The settings of an anchored plan are anchored. -/
theorem Anchored.assemble {settings : Settings} (anchored : plan.Anchored world)
    (assembled : plan.assemble world = .ok settings) : settings.Anchored := by
  rw [assemble_eq] at assembled
  obtain ⟨files, areFiles, assembled⟩ := bind_eq_ok.mp assembled
  obtain ⟨below, isBelow, assembled⟩ := bind_eq_ok.mp assembled
  obtain ⟨_, _, assembled⟩ := bind_eq_ok.mp assembled
  cases assembled
  have fromFiles : (Settings.overlayAll (files.map (·.settings))).Anchored := by
    refine Settings.anchored_empty.foldl fun layer member => ?_
    obtain ⟨file, isFile, rfl⟩ := List.mem_map.mp member
    exact anchored.files areFiles file isFile
  refine Settings.Anchored.foldl ?_ anchored.overrides
  unfold settingsBelow at isBelow
  split at isBelow
  · cases isBelow
    exact fromFiles
  · next reads =>
    exact fromFiles.withEnvironment (anchored.environment (Bool.not_eq_true _ ▸ reads)) isBelow

end SettingsPlan

end LayeredConfig
