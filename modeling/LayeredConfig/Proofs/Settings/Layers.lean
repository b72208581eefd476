/-
This file says which layer each of the assembled settings comes from.

Files, the environment and the caller lay settings over what is below them, each in a way of its
own: a file goes under the next one, the environment changes what the files came to, and the caller
lays whole settings on top. All three are one relation between what is below, what is laid over it
and what comes out, up to repetitions among the additional profiles. So one order goes through all
layers: a setting has the value of the highest layer that gives one, and the additional profiles are
those of all layers, from the lowest to the highest.
-/

import LayeredConfig.Proofs.Settings.Anchoring

namespace LayeredConfig

/-! ### Lists without repetitions -/

/-- Of a list in front of another one, only what it holds matters, each item at its first place. -/
theorem eraseDups_append_congr {first second : List String}
    (same : first.eraseDups = second.eraseDups) (rest : List String) :
    (first ++ rest).eraseDups = (second ++ rest).eraseDups := by
  have held (item : String) : item ∈ first ↔ item ∈ second := by
    rw [← List.mem_eraseDups, same, List.mem_eraseDups]
  have removed : rest.removeAll first = rest.removeAll second := by
    unfold List.removeAll
    refine List.filter_congr fun item _ => ?_
    simp [held item]
  rw [List.eraseDups_append, List.eraseDups_append, same, removed]

theorem ProfileSettings.eraseDups_extended (profiles more : List String) :
    (extended profiles more).eraseDups = (profiles ++ more).eraseDups := by
  induction more generalizing profiles with
  | nil => rw [extended, List.append_nil]
  | cons profile rest inductionHypothesis =>
    by_cases isThere : profiles.contains profile = true
    · have again : (profiles ++ [profile]).eraseDups = profiles.eraseDups := by
        simp [List.eraseDups_append, List.removeAll, List.contains_iff_mem.mp isThere]
      rw [extended, if_pos isThere, inductionHypothesis, List.append_cons,
        eraseDups_append_congr again]
    · rw [extended, if_neg isThere, inductionHypothesis, ← List.append_cons]

/-! ### Single settings -/

namespace Settings

def activeProfiles? (settings : Settings) : Option (List String) :=
  settings.profiles.bind (·.active)

def fallbackProfiles? (settings : Settings) : Option (List String) :=
  settings.profiles.bind (·.fallback)

/-- The additional profiles; none if the list is left out. -/
def additionalProfiles (settings : Settings) : List String :=
  (settings.profiles.bind (·.additional)).getD []

/-- The value of the highest layer that gives one, the lowest layer first. -/
def highest? {Value : Type} (read : Settings → Option Value) (layers : List Settings) :
    Option Value :=
  layers.reverse.findSome? read

theorem highest?_append {Value : Type} (read : Settings → Option Value) (layers : List Settings)
    (upper : Settings) :
    highest? read (layers ++ [upper]) = (read upper).or (highest? read layers) := by
  cases gives : read upper <;> simp [highest?, gives]

/-- The settings that the environment gives: those of the variables that are set. -/
def ofEnvironment (world : World) : Except Error Settings := do
  let policy ← (filled? world "STRATUM_ON_NOT_FOUND").mapM MissingPolicy.read
  return {
    onMissing := policy
    profiles := some
      { active := filledList? world "STRATUM_PROFILES_ACTIVE"
        fallback := filledList? world "STRATUM_PROFILES_DEFAULT"
        additional := filledList? world "STRATUM_PROFILES_ADDITIONAL" }
    baseDirectory := filled? world "STRATUM_BASE_DIR"
    roots := rootsVariable? world
    imports := filledList? world "STRATUM_IMPORTS" }

/-! ### One layer over another -/

/-- What settings come to under an upper layer. -/
structure LaidUnder (lower upper result : Settings) : Prop where
  onMissing : result.onMissing = upper.onMissing.or lower.onMissing
  baseDirectory : result.baseDirectory = upper.baseDirectory.or lower.baseDirectory
  roots : result.roots = upper.roots.or lower.roots
  imports : result.imports = upper.imports.or lower.imports
  active : result.activeProfiles? = upper.activeProfiles?.or lower.activeProfiles?
  fallback : result.fallbackProfiles? = upper.fallbackProfiles?.or lower.fallbackProfiles?
  additional : result.additionalProfiles.eraseDups =
    (lower.additionalProfiles ++ upper.additionalProfiles).eraseDups

theorem laidUnder_overlay (lower upper : Settings) :
    LaidUnder lower upper (lower.overlay upper) := by
  obtain ⟨_, below, _⟩ := lower
  obtain ⟨_, above, _⟩ := upper
  refine ⟨rfl, rfl, rfl, rfl, ?_, ?_, ?_⟩
  · cases below <;> cases above <;> simp [overlay, activeProfiles?, ProfileSettings.overlay]
  · cases below <;> cases above <;> simp [overlay, fallbackProfiles?, ProfileSettings.overlay]
  · rcases below with _ | below <;> rcases above with _ | ⟨active, fallback, _ | more⟩ <;>
      simp [overlay, additionalProfiles, ProfileSettings.overlay,
        ProfileSettings.eraseDups_extended]

/-- The environment gives each setting through its variable, and what it leaves out stays. -/
theorem withEnvironment_eq (world : World) (lower : Settings) :
    lower.withEnvironment world = (do
      let policy ← (filled? world "STRATUM_ON_NOT_FOUND").mapM MissingPolicy.read
      return { lower with onMissing := policy.or lower.onMissing }.withVariables world) := by
  unfold withEnvironment
  cases filled? world "STRATUM_ON_NOT_FOUND" with
  | none => rfl
  | some name => cases isRead : MissingPolicy.read name <;> simp [isRead]

/-- The variables for profiles are laid over profile settings list by list; additional profiles are
put behind those there. -/
theorem withProfileVariables_lists (world : World) (below : Option ProfileSettings) :
    (withProfileVariables world below).bind (·.active) =
        (filledList? world "STRATUM_PROFILES_ACTIVE").or (below.bind (·.active)) ∧
      (withProfileVariables world below).bind (·.fallback) =
        (filledList? world "STRATUM_PROFILES_DEFAULT").or (below.bind (·.fallback)) ∧
      ((withProfileVariables world below).bind (·.additional)).getD [] =
        (below.bind (·.additional)).getD [] ++
          (filledList? world "STRATUM_PROFILES_ADDITIONAL").getD [] := by
  unfold withProfileVariables
  dsimp only
  split
  · next unset =>
    simp only [Bool.and_eq_true, Option.isNone_iff_eq_none] at unset
    simp [unset]
  · cases below <;> cases filledList? world "STRATUM_PROFILES_ADDITIONAL" <;>
      simp [ProfileSettings.empty]

/-- The environment changes settings as a layer over them does. -/
theorem laidUnder_withEnvironment {world : World} {lower result : Settings}
    (laid : lower.withEnvironment world = .ok result) :
    ∃ upper, ofEnvironment world = .ok upper ∧ LaidUnder lower upper result := by
  rw [withEnvironment_eq] at laid
  obtain ⟨policy, isRead, laid⟩ := bind_eq_ok.mp laid
  cases laid
  obtain ⟨active, fallback, additional⟩ := withProfileVariables_lists world lower.profiles
  refine ⟨_, bind_eq_ok.mpr ⟨policy, isRead, rfl⟩, rfl, rfl, rfl, rfl, active, fallback, ?_⟩
  exact congrArg List.eraseDups additional

/-! ### Many layers -/

/-- Each setting is that of the highest layer that gives it, the lowest layer first. The additional
profiles are those of all layers in this order, up to repetitions. -/
structure Layered (layers : List Settings) (settings : Settings) : Prop where
  onMissing : settings.onMissing = highest? (·.onMissing) layers
  baseDirectory : settings.baseDirectory = highest? (·.baseDirectory) layers
  roots : settings.roots = highest? (·.roots) layers
  imports : settings.imports = highest? (·.imports) layers
  active : settings.activeProfiles? = highest? activeProfiles? layers
  fallback : settings.fallbackProfiles? = highest? fallbackProfiles? layers
  additional : settings.additionalProfiles.eraseDups =
    (layers.flatMap additionalProfiles).eraseDups

theorem layered_empty : Layered [] empty :=
  ⟨rfl, rfl, rfl, rfl, rfl, rfl, rfl⟩

/-- What comes out under one more layer. -/
theorem Layered.extend {layers : List Settings} {lower upper result : Settings}
    (layered : Layered layers lower) (laid : LaidUnder lower upper result) :
    Layered (layers ++ [upper]) result where
  onMissing := by rw [highest?_append, laid.onMissing, layered.onMissing]
  baseDirectory := by rw [highest?_append, laid.baseDirectory, layered.baseDirectory]
  roots := by rw [highest?_append, laid.roots, layered.roots]
  imports := by rw [highest?_append, laid.imports, layered.imports]
  active := by rw [highest?_append, laid.active, layered.active]
  fallback := by rw [highest?_append, laid.fallback, layered.fallback]
  additional := by
    rw [laid.additional, eraseDups_append_congr layered.additional, List.flatMap_append,
      List.flatMap_singleton]

theorem Layered.foldl {layers upper : List Settings} {lowest : Settings}
    (layered : Layered layers lowest) : Layered (layers ++ upper) (upper.foldl overlay lowest) := by
  induction upper generalizing layers lowest with
  | nil => rwa [List.append_nil]
  | cons layer rest inductionHypothesis =>
    rw [List.append_cons]
    exact inductionHypothesis (layered.extend (laidUnder_overlay lowest layer))

end Settings

/-! ### Settings files -/

namespace SettingsFile

variable {world : World} {files : List SettingsFile}

theorem ranks_of_loadIn {directory name : String} {rank : Nat}
    (loaded : loadIn world directory name rank = .ok files) :
    (files.map (·.rank)).Sublist [rank] := by
  unfold loadIn at loaded
  dsimp only at loaded
  split at loaded
  · obtain ⟨_, _, rfl⟩ := map_eq_ok.mp loaded
    exact List.Sublist.refl [rank]
  · cases loaded
    exact List.nil_sublist [rank]

end SettingsFile

namespace SettingsPlan

/-- A file that a plan may take settings from. Its rank is that of its kind: the settings of the
user are the weakest ones, and the private ones of a project are the strongest. -/
inductive MayRead (plan : SettingsPlan) (world : World) : SettingsFile → Prop
  | user {directory : String} {settings : Settings}
    (isDirectory : directory =
      plan.settingsDirectory.getD (SettingsFile.defaultDirectory world.home))
    (isLoaded : SettingsFile.load world (Path.join directory SettingsFile.userName) =
      .ok settings) :
    MayRead plan world ⟨Path.join directory SettingsFile.userName, 1, settings⟩
  | shared {directory : String} {settings : Settings}
    (isLoaded : SettingsFile.load world (Path.join directory SettingsFile.projectName) =
      .ok settings) :
    MayRead plan world ⟨Path.join directory SettingsFile.projectName, 2, settings⟩
  | personal {directory : String} {settings : Settings}
    (isLoaded : SettingsFile.load world (Path.join directory SettingsFile.localName) =
      .ok settings) :
    MayRead plan world ⟨Path.join directory SettingsFile.localName, 3, settings⟩
  | named {path : String} {settings : Settings} (isNamed : plan.settingsFile = some path)
    (isLoaded : SettingsFile.load world path = .ok settings) :
    MayRead plan world ⟨path, 2, settings⟩

variable {plan : SettingsPlan} {world : World}

theorem mayRead_of_projectFilesIn {directory : String} {files : List SettingsFile}
    (areFiles : SettingsFile.projectFilesIn world directory = .ok files) :
    (files.map (·.rank)).Sublist [2, 3] ∧ ∀ file ∈ files, plan.MayRead world file := by
  obtain ⟨shared, areShared, areFiles⟩ := bind_eq_ok.mp areFiles
  obtain ⟨personal, arePersonal, areFiles⟩ := bind_eq_ok.mp areFiles
  cases areFiles
  refine ⟨?_, fun file member => ?_⟩
  · rw [List.map_append]
    exact (SettingsFile.ranks_of_loadIn areShared).append (SettingsFile.ranks_of_loadIn arePersonal)
  · rcases List.mem_append.mp member with inShared | inPersonal
    · obtain ⟨_, isLoaded, rfl⟩ := SettingsFile.mem_of_loadIn areShared inShared
      exact .shared isLoaded
    · obtain ⟨_, isLoaded, rfl⟩ := SettingsFile.mem_of_loadIn arePersonal inPersonal
      exact .personal isLoaded

/-- A plan reads at most one file of each kind, the weakest kind first. -/
theorem mayRead_of_files {files : List SettingsFile} (areFiles : plan.files world = .ok files) :
    (files.map (·.rank)).Sublist [1, 2, 3] ∧ ∀ file ∈ files, plan.MayRead world file := by
  unfold SettingsPlan.files at areFiles
  split at areFiles
  · cases areFiles
    exact ⟨List.nil_sublist _, nofun⟩
  · split at areFiles
    · next path isNamed =>
      obtain ⟨settings, isLoaded, rfl⟩ := map_eq_ok.mp areFiles
      simpa using MayRead.named isNamed isLoaded
    · obtain ⟨start, _, areFiles⟩ := bind_eq_ok.mp areFiles
      obtain ⟨user, areUser, areFiles⟩ := bind_eq_ok.mp areFiles
      obtain ⟨project, areProject, areFiles⟩ := bind_eq_ok.mp areFiles
      cases areFiles
      have ofProject : (project.map (·.rank)).Sublist [2, 3] ∧
          ∀ file ∈ project, plan.MayRead world file := by
        rcases SettingsFile.directory_of_discoverFrom areProject with
            rfl | ⟨nearest, _, inNearest⟩
        · exact ⟨List.nil_sublist _, nofun⟩
        · exact mayRead_of_projectFilesIn inNearest
      refine ⟨?_, fun file member => ?_⟩
      · rw [List.map_append]
        exact (SettingsFile.ranks_of_loadIn areUser).append ofProject.1
      · rcases List.mem_append.mp member with inUser | inProject
        · obtain ⟨_, isLoaded, rfl⟩ := SettingsFile.mem_of_loadIn areUser inUser
          exact .user rfl isLoaded
        · exact ofProject.2 file inProject

/-- The layer that the environment is in a plan, if the plan reads it. -/
def environmentLayers (plan : SettingsPlan) (world : World) : Except Error (List Settings) :=
  if plan.skipEnvironment then .ok [] else (Settings.ofEnvironment world).map fun layer => [layer]

/-- Settings that are assembled take each setting from the highest layer that gives it: from the
files of the user and of the project, shared before private, from the environment above them, and
from the settings that the caller lays over these. The additional profiles are those of all layers,
the lowest first, up to repetitions. -/
theorem layered_of_assemble {plan : SettingsPlan} {world : World} {settings : Settings}
    (assembled : plan.assemble world = .ok settings) :
    ∃ files environment, plan.files world = .ok files ∧
      plan.environmentLayers world = .ok environment ∧
      (files.map (·.rank)).Sublist [1, 2, 3] ∧ (∀ file ∈ files, plan.MayRead world file) ∧
      Settings.Layered (files.map (·.settings) ++ environment ++ plan.overrides) settings := by
  rw [assemble_eq] at assembled
  obtain ⟨files, areFiles, assembled⟩ := bind_eq_ok.mp assembled
  obtain ⟨below, isBelow, assembled⟩ := bind_eq_ok.mp assembled
  obtain ⟨_, _, assembled⟩ := bind_eq_ok.mp assembled
  cases assembled
  obtain ⟨ranks, mayRead⟩ := mayRead_of_files areFiles
  have fromFiles : Settings.Layered (files.map (·.settings))
      (Settings.overlayAll (files.map (·.settings))) := Settings.layered_empty.foldl
  unfold settingsBelow at isBelow
  split at isBelow
  · next skips =>
    cases isBelow
    refine ⟨files, [], areFiles, if_pos skips, ranks, mayRead, ?_⟩
    rw [List.append_nil]
    exact fromFiles.foldl
  · next reads =>
    obtain ⟨layer, isLayer, laid⟩ := Settings.laidUnder_withEnvironment isBelow
    refine ⟨files, [layer], areFiles, ?_, ranks, mayRead, (fromFiles.extend laid).foldl⟩
    rw [environmentLayers, if_neg reads, isLayer]
    rfl

/-- A user and a project in `/w` with settings of their own, and variables above them. -/
def layeredWorld : World where
  files := ((FileSystem.empty.addFile ["root", ".stratum", "settings.yaml"]
      "imports: [u]\nprofiles: {active: [u], additional: [u]}\n".toUTF8).addFile
      ["w", "stratum.yaml"] "imports: [p]\nbase_dir: conf\n".toUTF8).addFile
      ["w", "stratum.local.yaml"] "profiles: {default: [l], additional: [l, u]}\n".toUTF8
  workingDirectory := some "/w"
  home := "/root"
  environment := [("STRATUM_PROFILES_ACTIVE", "e"), ("STRATUM_PROFILES_ADDITIONAL", "l, e")]

/-- A plan of all layers, with settings over them that give a policy and one more profile. -/
def layeredPlan : SettingsPlan :=
  { everything with overrides := [
    { Settings.empty with onMissing := some .ignore },
    { Settings.empty with profiles := some { ProfileSettings.empty with additional := some ["o"] } }] }

/-- What the plan assembles there. -/
def layeredSettings : Settings where
  onMissing := some .ignore
  profiles := some ⟨some ["e"], some ["l"], some ["u", "l", "l", "e", "o"]⟩
  baseDirectory := some "/w/conf"
  roots := none
  imports := some ["p"]

/-- Each layer gives a setting that none above it gives. -/
theorem layered_of_assemble_layeredWorld :
    layeredPlan.assemble layeredWorld = .ok layeredSettings ∧
      ∃ files environment, layeredPlan.files layeredWorld = .ok files ∧
        layeredPlan.environmentLayers layeredWorld = .ok environment ∧
        (files.map (·.rank)).Sublist [1, 2, 3] ∧
        (∀ file ∈ files, layeredPlan.MayRead layeredWorld file) ∧
        Settings.Layered (files.map (·.settings) ++ environment ++ layeredPlan.overrides)
          layeredSettings := by
  have assembles : (layeredPlan.assemble layeredWorld).toOption = some layeredSettings := by
    decide +kernel
  exact ⟨ok_of_toOption assembles, layered_of_assemble (ok_of_toOption assembles)⟩

end SettingsPlan

end LayeredConfig
