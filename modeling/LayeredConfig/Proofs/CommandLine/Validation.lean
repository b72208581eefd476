/-
This file says when the command that validates a settings file agrees with the use of the file.

To use a settings file is to read it under its absolute path. The command reads it under the path
that it is given, and where this is relative, so is the directory from which the directories in the
file are read. From there, a directory that climbs may climb too far, one that leads nowhere else
comes to nothing, and if the path is a bare name, directories are not read at all. None of this
happens to a file that stores no such directories, or to one that is given by an absolute path.

Both ways must find the same text. The absolute path has its dots taken away, and where `..` follows
a link, this may be the path of another file; that it is not is assumed wherever the two are
compared.
-/

import LayeredConfig.CommandLine.Program
import LayeredConfig.Proofs.Settings.Acceptance

namespace LayeredConfig

open LayeredConfig.Path Settings

/-! ### Both ways to read a file -/

namespace Command

variable {options : GlobalOptions} {world : World} {path : String}

/-- The command succeeds if the file exists and is accepted under the given path. -/
theorem validates_iff : (runValidate options world path).result.1 = .ok () ↔
    world.pathExists path = true ∧ Accepted (SettingsFile.load world path) := by
  unfold runValidate
  cases isThere : world.pathExists path with
  | false =>
    refine iff_of_false (fun succeeded => ?_) (fun both => Bool.false_ne_true both.1)
    cases succeeded
  | true =>
    rw [and_iff_right rfl]
    cases isLoaded : SettingsFile.load world path with
    | error cause =>
      refine iff_of_false (fun succeeded => ?_) not_accepted_of_error
      cases succeeded
    | ok settings =>
      rw [Accepted, exists_ok_and]
      cases checked : settings.check with
      | error cause =>
        refine iff_of_false (fun succeeded => ?_) (fun passes => ?_)
        · dsimp only at succeeded
          rw [checked] at succeeded
          cases succeeded
        · cases passes
      | ok =>
        refine iff_of_true ?_ rfl
        dsimp only
        rw [checked]
        rfl

end Command

namespace SettingsPlan

/-- Settings from one file only. -/
def onlyFile (file : String) : SettingsPlan :=
  { everything with settingsFile := some file, skipEnvironment := true }

theorem overlayAll_singleton (settings : Settings) : overlayAll [settings] = settings := by
  obtain ⟨onMissing, profiles, baseDirectory, roots, imports⟩ := settings
  show Settings.mk (onMissing.or none) _ (baseDirectory.or none) (roots.or none) (imports.or none) =
    _
  simp only [Option.or_none]
  rfl

/-- The settings of one file are assembled if the file is accepted. -/
theorem assembles_onlyFile {world : World} {file : String} :
    (∃ settings, (onlyFile file).assemble world = .ok settings) ↔
      Accepted (SettingsFile.load world file) := by
  have inOrder : (onlyFile file).assemble world = (do
      let settings ← SettingsFile.load world file
      settings.check
      return settings) := by
    rw [assemble_eq]
    show ((SettingsFile.load world file).map _ >>= _) = _
    cases SettingsFile.load world file with
    | error cause => rfl
    | ok settings =>
      show (do (overlayAll [settings]).check; return overlayAll [settings]) = _
      rw [overlayAll_singleton]
      rfl
  rw [inOrder]
  constructor
  · rintro ⟨settings, assembled⟩
    obtain ⟨loaded, isLoaded, assembled⟩ := bind_eq_ok.mp assembled
    obtain ⟨_, checked, assembled⟩ := bind_eq_ok.mp assembled
    cases assembled
    exact ⟨settings, isLoaded, checked⟩
  · rintro ⟨settings, isLoaded, checked⟩
    refine ⟨settings, ?_⟩
    rw [isLoaded]
    show (do settings.check; return settings) = _
    rw [checked]
    rfl

end SettingsPlan

/-! ### Directories under both spellings -/

namespace Settings

section Directories

variable {home directory other path : String}

/-- From an absolute directory, a path comes to something if it does not climb too far. -/
theorem comesTo_iff (absolute : isAbsolute directory = true) : ComesTo home directory path ↔
    ∃ expanded names, expandTilde home path = .ok expanded ∧
      reduce [] (turns (join directory expanded).toList) = some names := by
  constructor
  · rintro ⟨result, anchored, _⟩
    obtain ⟨expanded, expands, anchored⟩ := bind_eq_ok.mp anchored
    rw [absolutize_eq] at anchored
    obtain ⟨names, reduced, _⟩ := resolveDots_eq_ok.mp anchored
    exact ⟨expanded, names, expands, reduced⟩
  · rintro ⟨expanded, names, expands, reduced⟩
    have absoluteToo := isAbsolute_join absolute expanded
    refine ⟨ofNames true names.reverse, ?_, ?_⟩
    · rw [SettingsFile.anchorPath, expands]
      show absolutize expanded directory = _
      rw [absolutize_eq, resolveDots_eq_ok]
      exact ⟨names, reduced, by rw [absoluteToo]⟩
    · intro empty
      have isAbsolute := isAbsolute_ofNames names.reverse
      rw [empty] at isAbsolute
      cases isAbsolute

/-- A path that comes to something from a directory also does so from the same directory, read from
an absolute one. -/
theorem ComesTo.above {start : String} {names : List (List Char)}
    (comes : ComesTo home directory path) (absolute : isAbsolute other = true)
    (spelled : reduce [] (turns start.toList ++ turns directory.toList) = some names)
    (means : reduce [] (turns other.toList) = some names) : ComesTo home other path := by
  obtain ⟨result, anchored, _⟩ := comes
  obtain ⟨expanded, expands, anchored⟩ := bind_eq_ok.mp anchored
  rw [absolutize_eq] at anchored
  obtain ⟨remains, reduced, _⟩ := resolveDots_eq_ok.mp anchored
  refine (comesTo_iff absolute).mpr ⟨expanded, ?_⟩
  by_cases isAbsolute : isAbsolute expanded = true
  · refine ⟨remains, expands, ?_⟩
    rw [join, isAbsolute, Bool.true_or, if_pos rfl] at reduced ⊢
    exact reduced
  · have relative := Bool.not_eq_true _ ▸ isAbsolute
    rw [turns_join relative] at reduced
    rw [reduce_append] at spelled
    obtain ⟨above, isAbove, spelled⟩ := Option.bind_eq_some_iff.mp spelled
    refine ⟨remains ++ above, expands, ?_⟩
    have climbs : reduce ([] ++ above) _ = some (remains ++ above) := reduce_append_names reduced
    rw [List.nil_append, reduce_append, spelled] at climbs
    rw [reduce_join relative, means]
    exact climbs

/-- A path of a directory leads down: without its dots, it leads to something, by names only. -/
def LeadsDown (home path : String) : Prop :=
  ∃ expanded result, expandTilde home path = .ok expanded ∧ resolveDots expanded = .ok result ∧
    result ≠ ""

theorem LeadsDown.comesTo (leads : LeadsDown home path) {names : List (List Char)}
    (reduced : reduce [] (turns directory.toList) = some names) : ComesTo home directory path := by
  obtain ⟨expanded, result, expands, isResolved, filled⟩ := leads
  have anchors : SettingsFile.anchorPath home directory path =
      resolveDots (join directory expanded) := by
    rw [SettingsFile.anchorPath, expands, ← absolutize_eq]
    rfl
  by_cases absolute : isAbsolute expanded = true
  · refine ⟨result, ?_, filled⟩
    rw [anchors, join, absolute, Bool.true_or, if_pos rfl, isResolved]
  · have relative := Bool.not_eq_true _ ▸ absolute
    obtain ⟨own, ownReduced, rfl⟩ := resolveDots_eq_ok.mp isResolved
    have ownFilled : own ≠ [] := by
      rintro rfl
      rw [relative] at filled
      exact filled rfl
    have below : reduce [] (turns (join directory expanded).toList) = some (own ++ names) := by
      rw [reduce_join relative, reduced]
      exact reduce_append_names ownReduced
    refine ⟨_, anchors.trans (resolveDots_eq_ok.mpr ⟨own ++ names, below, rfl⟩), ?_⟩
    refine ofNames_ne_empty (areNames_of_reduce below) ?_ _
    rw [List.reverse_ne_nil_iff]
    exact List.append_ne_nil_of_left_ne_nil ownFilled _

theorem LeadsDown.filled (leads : LeadsDown home path) : path ≠ "" := by
  rintro rfl
  obtain ⟨_, _, expands, isResolved, filled⟩ := leads
  obtain rfl := Except.ok.inj expands
  obtain rfl := Except.ok.inj isResolved
  exact filled rfl

/-- A path that leads down is fit for every directory that does not climb too far. -/
theorem LeadsDown.fits (leads : LeadsDown home path) {names : List (List Char)}
    (reduced : reduce [] (turns directory.toList) = some names) : Fits home directory path := by
  unfold Fits
  split
  · exact leads.filled
  · exact leads.comesTo reduced

theorem fits_of_absolute (absolute : isAbsolute directory = true) :
    Fits home directory path ↔ ComesTo home directory path := by
  rw [Fits, if_neg]
  rintro rfl
  cases absolute

/-- What is fit for a directory is fit for the same directory, read from an absolute one. -/
theorem Fits.above {start : String} {names : List (List Char)} (fits : Fits home directory path)
    (filled : directory ≠ "") (absolute : isAbsolute other = true)
    (spelled : reduce [] (turns start.toList ++ turns directory.toList) = some names)
    (means : reduce [] (turns other.toList) = some names) : Fits home other path := by
  rw [Fits, if_neg filled] at fits
  exact (fits_of_absolute absolute).mpr (fits.above absolute spelled means)

/-- Spellings of an absolute directory are fit for the same paths. -/
theorem fits_iff {names : List (List Char)} (absolute : isAbsolute directory = true)
    (absoluteToo : isAbsolute other = true)
    (spelled : reduce [] (turns directory.toList) = some names)
    (means : reduce [] (turns other.toList) = some names) :
    Fits home directory path ↔ Fits home other path := by
  have fromRoot {spelling : String} (reduced : reduce [] (turns spelling.toList) = some names) :
      reduce [] (turns "".toList ++ turns spelling.toList) = some names := reduced
  rw [fits_of_absolute absolute, fits_of_absolute absoluteToo]
  exact ⟨fun comes => comes.above absoluteToo (fromRoot spelled) means,
    fun comes => comes.above absolute (fromRoot means) spelled⟩

end Directories

end Settings

/-! ### The absolute path of a file -/

theorem Path.expandTilde_of_plain {home path : String} (noTilde : path.toList.head? ≠ some '~') :
    expandTilde home path = .ok path := by
  unfold expandTilde
  split
  · next same => exact absurd (by rw [same]; rfl) noTilde
  · next same => exact absurd (by rw [same]; rfl) noTilde
  · next same => exact absurd (by rw [same]; rfl) noTilde
  · next same => exact absurd (by rw [same]; rfl) noTilde
  · rfl

theorem Path.normalize_of_absolute {home path : String} {workingDirectory : Except String String}
    (noTilde : path.toList.head? ≠ some '~') (absolute : isAbsolute path = true) :
    Path.normalize home workingDirectory path = resolveDots path := by
  rw [Path.normalize, expandTilde_of_plain noTilde]
  exact if_pos absolute

theorem Path.normalize_of_relative {home path file : String}
    {workingDirectory : Except String String} (noTilde : path.toList.head? ≠ some '~')
    (relative : isAbsolute path = false)
    (normalized : Path.normalize home workingDirectory path = .ok file) :
    ∃ directory, workingDirectory = .ok directory ∧
      resolveDots (join directory path) = .ok file := by
  rw [Path.normalize, expandTilde_of_plain noTilde] at normalized
  have isResolved := (if_neg (Bool.not_eq_true _ ▸ relative)).symm.trans normalized
  cases workingDirectory with
  | ok directory => exact ⟨directory, rfl, isResolved⟩
  | error reason => cases isResolved

theorem World.workingDirectory_of_current {world : World} {directory : String}
    (isCurrent : world.currentDirectory = .ok directory) :
    world.workingDirectory = some directory := by
  unfold currentDirectory at isCurrent
  split at isCurrent
  · next given =>
    rw [given, Except.ok.inj isCurrent]
  · cases isCurrent

/-- The absolute path of a path without a tilde is the one that it is walked as, without its
dots. -/
theorem start_of_normalize {world : World} {path file : String}
    (noTilde : path.toList.head? ≠ some '~')
    (normalized : Path.normalize world.home world.currentDirectory path = .ok file)
    (absolute : ∀ directory ∈ world.workingDirectory, isAbsolute directory = true) :
    ∃ start, FileSystem.StartsAt world.workingDirectory path start ∧
      isAbsolute (join start path) = true ∧ resolveDots (join start path) = .ok file := by
  cases isAbsolutePath : isAbsolute path with
  | true =>
    have same : join "" path = path := by
      rw [join, isAbsolutePath]
      rfl
    rw [Path.normalize_of_absolute noTilde isAbsolutePath] at normalized
    refine ⟨"", ?_, ?_, ?_⟩
    · rw [FileSystem.StartsAt, if_pos isAbsolutePath]
    · rwa [same]
    · rwa [same]
  | false =>
    obtain ⟨directory, isDirectory, isResolved⟩ :=
      Path.normalize_of_relative noTilde isAbsolutePath normalized
    have isGiven := World.workingDirectory_of_current isDirectory
    refine ⟨directory, ?_, isAbsolute_join (absolute directory isGiven) path, isResolved⟩
    rw [FileSystem.StartsAt, if_neg (Bool.not_eq_true _ ▸ isAbsolutePath)]
    exact isGiven

/-! ### The command and the use of a file -/

namespace Command

/-- If a path and its normal form have the same text, the command and the use of the file agree on
every file that is given by an absolute path, and on every one whose directories lead down, if it is
not above the working directory. Where the path has a directory, the command accepts no file that
cannot be used. -/
theorem validates_iff_assembles (options : GlobalOptions) {world : World} {path file : String}
    (isThere : world.pathExists path = true) (noTilde : path.toList.head? ≠ some '~')
    (normalized : Path.normalize world.home world.currentDirectory path = .ok file)
    (workingDirectory : ∀ directory ∈ world.workingDirectory, isAbsolute directory = true)
    (sameText : ∀ text, world.readText file = .ok text ↔ world.readText path = .ok text) :
    ((isAbsolute path = true ∨ ∀ text stored, world.readText path = .ok text →
        ofText text = .ok stored → ∀ directory ∈ stored.directories,
          LeadsDown world.home directory ∧ ∃ own, resolveDots path = .ok own) →
      ((runValidate options world path).result.1 = .ok () ↔
        ∃ settings, (SettingsPlan.onlyFile file).assemble world = .ok settings)) ∧
    (parent? path ≠ some "" → (runValidate options world path).result.1 = .ok () →
      ∃ settings, (SettingsPlan.onlyFile file).assemble world = .ok settings) := by
  obtain ⟨start, starts, absolute, isResolved⟩ :=
    start_of_normalize noTilde normalized workingDirectory
  have validates : (runValidate options world path).result.1 = .ok () ↔
      Accepted (SettingsFile.load world path) :=
    validates_iff.trans (and_iff_right isThere)
  rw [validates, SettingsPlan.assembles_onlyFile]
  cases isText : world.readText path with
  | error fault =>
    have refused := not_accepted_of_unreadable isText
    refine ⟨fun _ => iff_of_false refused ?_, fun _ accepted => absurd accepted refused⟩
    cases isTextToo : world.readText file with
    | error faultToo => exact not_accepted_of_unreadable isTextToo
    | ok text =>
      rw [(sameText text).mp isTextToo] at isText
      cases isText
  | ok text =>
    obtain ⟨_, isFile⟩ := FileSystem.locate_of_readText isText
    obtain ⟨directory, name, names, isParent, split, spelled, means, isParentToo⟩ :=
      FileSystem.parents_of_resolved starts absolute isResolved isFile
    have absoluteToo := isAbsolute_ofNames names.reverse
    rw [accepted_load isText isParent, accepted_load ((sameText text).mpr isText) isParentToo]
    constructor
    · intro alike
      refine exists_congr fun stored => and_congr_right fun isStored => and_congr_right fun _ => ?_
      refine forall₂_congr fun written isDirectory => ?_
      rcases alike with isAbsolutePath | leadDown
      · rw [FileSystem.StartsAt, if_pos isAbsolutePath] at starts
        subst starts
        exact fits_iff (isAbsolute_parent isAbsolutePath isParent) absoluteToo spelled means
      · obtain ⟨leads, own, isOwn⟩ := leadDown text stored rfl isStored written isDirectory
        obtain ⟨_, reduced, _⟩ := resolveDots_eq_ok.mp isOwn
        rw [split, reduce_append] at reduced
        obtain ⟨_, below, _⟩ := Option.bind_eq_some_iff.mp reduced
        exact iff_of_true (leads.fits below) (leads.fits means)
    · rintro hasParent ⟨stored, isStored, named, fit⟩
      refine ⟨stored, isStored, named, fun written isDirectory =>
        (fit written isDirectory).above ?_ absoluteToo spelled means⟩
      rintro rfl
      exact hasParent isParent

/-- A project in `/w` with the given settings file. -/
def projectWith (settings : String) : World where
  files := FileSystem.empty.addFile ["w", "stratum.yaml"] settings.toUTF8
  workingDirectory := some "/w"
  home := "/root"
  environment := []

/-- Options that ask for nothing. -/
def noOptions : GlobalOptions := ⟨false, false, none, none, [], [], none, [], []⟩

theorem absolute_projectWith (settings : String) :
    ∀ directory ∈ (projectWith settings).workingDirectory, isAbsolute directory = true := by
  intro directory same
  obtain rfl := Option.some.inj same
  decide

/-- A file whose base directory leads down is valid under a relative path too. -/
theorem validates_iff_assembles_projectWith :
    ∃ text stored, (projectWith "base_dir: conf\n").readText "./stratum.yaml" = .ok text ∧
      ofText text = .ok stored ∧ stored.directories = ["conf"] ∧
      (runValidate noOptions (projectWith "base_dir: conf\n") "./stratum.yaml").result.1 = .ok () ∧
      ∃ settings, (SettingsPlan.onlyFile "/w/stratum.yaml").assemble
        (projectWith "base_dir: conf\n") = .ok settings := by
  have isText : (projectWith "base_dir: conf\n").readText "./stratum.yaml" =
      .ok "base_dir: conf\n" := by
    decide +kernel
  have directories : (ofText "base_dir: conf\n").toOption.map Settings.directories =
      some ["conf"] := by
    decide +kernel
  have sameText : (projectWith "base_dir: conf\n").readText "/w/stratum.yaml" =
      (projectWith "base_dir: conf\n").readText "./stratum.yaml" := by
    decide +kernel
  have succeeded : (runValidate noOptions (projectWith "base_dir: conf\n")
      "./stratum.yaml").result.1 = .ok () := by
    decide +kernel
  obtain ⟨stored, isStored, only⟩ := exists_ok_of_map directories
  have agrees := (validates_iff_assembles noOptions
    (show (projectWith "base_dir: conf\n").pathExists "./stratum.yaml" = true by decide +kernel)
    (by decide) (show Path.normalize _ _ "./stratum.yaml" = .ok "/w/stratum.yaml" by decide +kernel)
    (absolute_projectWith _) (fun text => sameText ▸ Iff.rfl)).1
  refine ⟨_, stored, isText, isStored, only, succeeded, (agrees (.inr ?_)).mp succeeded⟩
  intro text other same isOther directory member
  obtain rfl := Except.ok.inj (isText.symm.trans same)
  obtain rfl := Except.ok.inj (isStored.symm.trans isOther)
  rw [only] at member
  obtain rfl := List.mem_singleton.mp member
  exact ⟨⟨"conf", "conf", by decide, by decide, by decide⟩, "stratum.yaml", by decide⟩

/-- A file whose base directory is its own directory is invalid under a relative path, though it can
be used. -/
theorem refused_though_usable :
    ¬ ∀ (options : GlobalOptions) (world : World) (path file : String),
      world.pathExists path = true → path.toList.head? ≠ some '~' →
      Path.normalize world.home world.currentDirectory path = .ok file →
      (∀ directory ∈ world.workingDirectory, isAbsolute directory = true) →
      (∀ text, world.readText file = .ok text ↔ world.readText path = .ok text) →
      ((runValidate options world path).result.1 = .ok () ↔
        ∃ settings, (SettingsPlan.onlyFile file).assemble world = .ok settings) := by
  intro agree
  have assembles : ((SettingsPlan.onlyFile "/w/stratum.yaml").assemble
      (projectWith "base_dir: .\n")).isOk = true := by
    decide +kernel
  have sameText : (projectWith "base_dir: .\n").readText "/w/stratum.yaml" =
      (projectWith "base_dir: .\n").readText "./stratum.yaml" := by
    decide +kernel
  have succeeded := (agree noOptions (projectWith "base_dir: .\n") "./stratum.yaml"
    "/w/stratum.yaml" (by decide +kernel) (by decide) (by decide +kernel)
    (absolute_projectWith _) (fun text => sameText ▸ Iff.rfl)).mpr (exists_ok_of_isOk assembles)
  revert succeeded
  decide +kernel

end Command

end LayeredConfig
