/-
This file says that the repository of assembled settings knows every file by one absolute path.

The finder of the repository reads relative locations from the base directory, or from the working
directory if there is none. If all that a plan takes base directories from gives absolute ones, both
are absolute, and so every identity is the mark of files and an absolute path, in normal form unless
the name of a profile brings slashes with it. Spellings that mean the same path then lead to the
same identity, and no file is loaded again of which a source was loaded.

The environment may give a relative base directory. It is not anchored as that of a file is, and the
files found from there get identities that no absolute spelling leads to.
-/

import LayeredConfig.Proofs.Import.Identity
import LayeredConfig.Proofs.Resolution.Origin
import LayeredConfig.Proofs.Settings.Anchoring

namespace LayeredConfig

open LayeredConfig.Path Text

/-! ### The finder of a repository of settings -/

namespace Settings

/-- The finder of files that settings describe. -/
def fileFinder (settings : Settings) (world : World) (workingDirectory : String) : FileFinder :=
  ⟨world, settings.baseDirectoryOr workingDirectory, settings.rootList⟩

variable {settings : Settings}

theorem Anchored.absolute_baseDirectory (anchored : settings.Anchored) (world : World)
    {workingDirectory : String} (absolute : isAbsolute workingDirectory = true) :
    isAbsolute (settings.fileFinder world workingDirectory).baseDirectory = true := by
  show isAbsolute (settings.baseDirectoryOr workingDirectory) = true
  unfold baseDirectoryOr
  cases isBase : settings.baseDirectory with
  | none => exact absolute
  | some path => exact anchored path isBase

/-- The repository of settings leads only to what the finder returns. -/
theorem findsOnly_repository (settings : Settings) (world : World) (workingDirectory : String) :
    (settings.repository world workingDirectory).FindsOnly
      (settings.fileFinder world workingDirectory).Returned := by
  intro context location search asked resource member
  unfold Repository.answer at member
  split at member
  · cases member
  · next finder isFinder =>
    obtain rfl := List.mem_singleton.mp (List.mem_of_find?_eq_some isFinder)
    split at member
    · obtain ⟨found, isFound, inFound⟩ := exists_ok_of_mem member
      exact .base asked isFound inFound
    · cases member
    · obtain ⟨found, isFound, inFound⟩ := exists_ok_of_mem member
      exact .variant asked isFound inFound

end Settings

/-! ### One identity for each file -/

namespace FileFinder

variable {finder : FileFinder} {first second : FindContext} {location other : Location}

/-- Two locations, each in its context, spell paths of the same meaning. -/
structure Coincide (finder : FileFinder) (first second : FindContext) (location other : Location) :
    Prop where
  noRoot : rest? rootMark location.value = none
  noRootToo : rest? rootMark other.value = none
  same : ∃ path otherPath, finder.spelled first location = .ok path ∧
    finder.spelled second other = .ok otherPath ∧ resolveDots path = resolveDots otherPath

theorem Coincide.candidates_eq (coincide : finder.Coincide first second location other) :
    finder.candidates first location = finder.candidates second other := by
  obtain ⟨path, otherPath, spells, spellsToo, same⟩ := coincide.same
  rw [candidates_of_spelled coincide.noRoot spells,
    candidates_of_spelled coincide.noRootToo spellsToo, same]

theorem Coincide.candidate (coincide : finder.Coincide first second location other)
    {paths : List String} (areCandidates : finder.candidates first location = .ok paths) :
    ∃ path, paths = [path] := by
  obtain ⟨path, _, spells, _, _⟩ := coincide.same
  rw [candidates_of_spelled coincide.noRoot spells] at areCandidates
  obtain ⟨resolved, _, rfl⟩ := map_eq_ok.mp areCandidates
  exact ⟨resolved, rfl⟩

/-- Spellings of one path are searched for alike, if both or none are of directories. -/
theorem Coincide.identities (coincide : finder.Coincide first second location other)
    (sameKind : isDirectoryLocation location = isDirectoryLocation other) :
    identities (finder.find first location) = FileFinder.identities (finder.find second other) ∧
      ∀ profiles, FileFinder.identities (finder.findVariants first location profiles) =
        FileFinder.identities (finder.findVariants second other profiles) := by
  constructor
  · rw [identities_find, identities_find, coincide.candidates_eq, sameKind]
  · intro profiles
    rw [identities_findVariants, identities_findVariants, coincide.candidates_eq]
    refine congrArg (Option.map · _) (funext fun paths => ?_)
    refine congrArg (List.flatMap · _) (funext fun profile => ?_)
    have bases : finder.variantBases location paths = finder.variantBases other paths := by
      rw [variantBases, variantBases, sameKind]
    rw [bases, variantsFor, variantsFor, sameKind, List.map_map, List.map_map]
    rfl

end FileFinder

theorem World.not_isDirectory_of_isFile {world : World} {path : String}
    (isFile : world.isFile path = true) : world.isDirectory path = false := by
  unfold World.isFile FileSystem.isFile at isFile
  unfold World.isDirectory FileSystem.isDirectory
  split at isFile
  · next located => rw [located]
  · cases isFile

namespace FileFinder

variable {finder : FileFinder} {first second : FindContext} {location other : Location}

/-- A location that is found is one of a directory just if its only candidate is one. -/
theorem kind_of_find {path : String} {found : List Resource}
    (isCandidate : finder.candidates first location = .ok [path])
    (isFound : finder.find first location = .ok found) :
    isDirectoryLocation location = finder.world.isDirectory path := by
  have ids : identities (finder.find first location) = _ := identities_find
  rw [isFound, isCandidate] at ids
  cases kind : isDirectoryLocation location with
  | true =>
    rw [kind] at ids
    obtain ⟨directory, isDirectory, _⟩ := Option.map_eq_some_iff.mp ids.symm
    obtain rfl := List.mem_singleton.mp (List.mem_of_find?_eq_some isDirectory)
    exact (List.find?_some isDirectory).symm
  | false =>
    rw [kind] at ids
    obtain ⟨file, isFile, _⟩ := Option.map_eq_some_iff.mp ids.symm
    obtain rfl := List.mem_singleton.mp (List.mem_of_find?_eq_some isFile)
    exact (World.not_isDirectory_of_isFile (List.find?_some isFile)).symm

/-- Where spellings of one path are both found, they are found under the same identities. -/
theorem Coincide.found (coincide : finder.Coincide first second location other)
    {found otherFound : List Resource} (isFound : finder.find first location = .ok found)
    (isFoundToo : finder.find second other = .ok otherFound) :
    found.map Resource.id = otherFound.map Resource.id := by
  obtain ⟨paths, areCandidates, _⟩ := bind_eq_ok.mp isFound
  obtain ⟨path, rfl⟩ := coincide.candidate areCandidates
  have sameKind := (kind_of_find areCandidates isFound).trans
    (kind_of_find (coincide.candidates_eq ▸ areCandidates) isFoundToo).symm
  have ids := (coincide.identities sameKind).1
  rw [isFound, isFoundToo] at ids
  exact Option.some.inj ids

end FileFinder

/-- Two resources that are known by paths of the same meaning have the same identity. -/
theorem Resource.Placed.id_eq {resource other : Resource} (placed : resource.Placed)
    (placedToo : other.Placed) (slashless : resource.Slashless) (slashlessToo : other.Slashless)
    {path otherPath : String} (known : resource.path? = some path)
    (knownToo : other.path? = some otherPath)
    (same : resolveDots path = resolveDots otherPath) : resource.id = other.id := by
  obtain ⟨own, isOwn, _, normal⟩ := placed
  obtain ⟨otherOwn, isOtherOwn, _, otherNormal⟩ := placedToo
  obtain rfl := Option.some.inj ((path_of_id isOwn).symm.trans known)
  obtain rfl := Option.some.inj ((path_of_id isOtherOwn).symm.trans knownToo)
  rw [(normal slashless).resolveDots_eq, (otherNormal slashlessToo).resolveDots_eq] at same
  rw [isOwn, isOtherOwn, Except.ok.inj same]

/-- Let a plan take base directories from absolute places only. Then whatever the finder of its
settings returns is known by an absolute path, in normal form unless its profile has a slash;
locations that spell paths of the same meaning are found under the same identities, and so are their
variants; and a resolution loads no resource after another of the same meaning of which a source was
loaded. -/
theorem SettingsPlan.Anchored.one_identity {plan : SettingsPlan} {world : World}
    {settings : Settings} {workingDirectory : String} (anchored : plan.Anchored world)
    (assembled : plan.assemble world = .ok settings)
    (absolute : isAbsolute workingDirectory = true) :
    (∀ resource, (settings.fileFinder world workingDirectory).Returned resource →
      resource.Placed) ∧
    (∀ first second location other,
      (settings.fileFinder world workingDirectory).Coincide first second location other →
      (∀ found otherFound,
        (settings.fileFinder world workingDirectory).find first location = .ok found →
        (settings.fileFinder world workingDirectory).find second other = .ok otherFound →
        found.map Resource.id = otherFound.map Resource.id) ∧
      (FileFinder.isDirectoryLocation location = FileFinder.isDirectoryLocation other →
        ∀ profiles, FileFinder.identities
            ((settings.fileFinder world workingDirectory).findVariants first location profiles) =
          FileFinder.identities
            ((settings.fileFinder world workingDirectory).findVariants second other profiles))) ∧
    ∀ initial request,
      (∀ load ∈ (Configuration.resolve (settings.repository world workingDirectory) initial
          request).recorded.loads,
        (settings.fileFinder world workingDirectory).Returned load.1) ∧
      (Configuration.resolve (settings.repository world workingDirectory) initial
          request).recorded.loads.Pairwise fun earlier later =>
        earlier.1.Slashless → later.1.Slashless → ∀ path otherPath,
          earlier.1.path? = some path → later.1.path? = some otherPath →
          resolveDots path = resolveDots otherPath → earlier.2.sources = [] := by
  have base := (anchored.assemble assembled).absolute_baseDirectory world absolute
  have placed : ∀ resource, (settings.fileFinder world workingDirectory).Returned resource →
      resource.Placed := fun resource returned => returned.placed base
  refine ⟨placed, fun first second location other coincide =>
    ⟨fun found otherFound => coincide.found, fun sameKind => (coincide.identities sameKind).2⟩,
    fun initial request => ?_⟩
  have returned := Configuration.only_of_resolve
    (settings.findsOnly_repository world workingDirectory) initial request
  refine ⟨returned, ?_⟩
  have follow := Configuration.mayFollow_of_resolve (settings.repository world workingDirectory)
    initial request
  refine follow.imp_of_mem fun {earlier later} isEarlier isLater mayFollow slashless slashlessToo
    path otherPath known knownToo same => mayFollow ?_
  exact (placed _ (returned earlier isEarlier)).id_eq (placed _ (returned later isLater)) slashless
    slashlessToo known knownToo same

namespace SettingsPlan

/-- The plan of a program that runs in the directory `/w`. -/
def projectPlan : SettingsPlan :=
  { everything with workingDirectory := some "/w" }

/-- What is loaded for a source that imports the same file in two spellings: the identities, and the
number of sources under each. -/
def loadedTwice (world : World) (settings : Settings) : List (String × Nat) :=
  (Configuration.resolve (settings.repository world "/w")
    [.ofPairs "s" [("config.import", "app.properties, /w/./conf/app.properties")]]
    .unset).recorded.loads.map fun load => (load.1.id, load.2.sources.length)

/-- A project in `/w` whose settings read imports from `conf`, and a file there. -/
def projectWorld : World where
  files := (FileSystem.empty.addFile ["w", "stratum.yaml"] "base_dir: conf\n".toUTF8).addFile
    ["w", "conf", "app.properties"] "k=1".toUTF8
  workingDirectory := some "/w"
  home := "/root"
  environment := []

/-- The base directory of a settings file is anchored, and the file has one identity. -/
theorem one_identity_projectWorld :
    projectPlan.Anchored projectWorld ∧ isAbsolute "/w" = true ∧
    ∃ settings, projectPlan.assemble projectWorld = .ok settings ∧
      (∀ resource, (settings.fileFinder projectWorld "/w").Returned resource → resource.Placed) ∧
      loadedTwice projectWorld settings = [("file:/w/conf/app.properties", 1)] := by
  have anchored : projectPlan.Anchored projectWorld := by
    refine ⟨by decide, ?_, nofun, nofun, fun _ => ?_, nofun⟩
    · intro directory isStart
      obtain rfl := Except.ok.inj isStart
      decide
    · rw [show Settings.filled? projectWorld "STRATUM_BASE_DIR" = none by decide]
      exact nofun
  have loads : (projectPlan.assemble projectWorld).toOption.map (loadedTwice projectWorld) =
      some [("file:/w/conf/app.properties", 1)] := by
    decide +kernel
  obtain ⟨settings, assembled, loaded⟩ := exists_ok_of_map loads
  exact ⟨anchored, by decide, settings, assembled,
    (anchored.one_identity assembled (show isAbsolute "/w" = true by decide)).1, loaded⟩

/-- The same file without settings, and a variable that names its directory. -/
def variableWorld : World where
  files := FileSystem.empty.addFile ["w", "conf", "app.properties"] "k=1".toUTF8
  workingDirectory := some "/w"
  home := "/root"
  environment := [("STRATUM_BASE_DIR", "conf")]

/-- A relative directory in the environment is not anchored: what is found from there is known by a
relative path, and is loaded again under the absolute one. -/
theorem two_identities_of_variable :
    (∃ settings, projectPlan.assemble variableWorld = .ok settings ∧
      loadedTwice variableWorld settings =
        [("file:conf/app.properties", 1), ("file:/w/conf/app.properties", 1)]) ∧
    ¬ ∀ (plan : SettingsPlan) (world : World) (settings : Settings) (workingDirectory : String),
      plan.assemble world = .ok settings → isAbsolute workingDirectory = true →
      ∀ resource, (settings.fileFinder world workingDirectory).Returned resource →
        ∃ path, resource.id = fileMark ++ path ∧ isAbsolute path = true := by
  have loads : (projectPlan.assemble variableWorld).toOption.map (loadedTwice variableWorld) =
      some [("file:conf/app.properties", 1), ("file:/w/conf/app.properties", 1)] := by
    decide +kernel
  obtain ⟨settings, assembled, loaded⟩ := exists_ok_of_map loads
  refine ⟨⟨settings, assembled, loaded⟩, fun areAbsolute => ?_⟩
  have first : ("file:conf/app.properties", 1) ∈ loadedTwice variableWorld settings :=
    loaded ▸ List.mem_cons_self
  obtain ⟨load, isLoad, same⟩ := List.mem_map.mp first
  have returned := Configuration.only_of_resolve
    (settings.findsOnly_repository variableWorld "/w") _ _ load isLoad
  obtain ⟨path, known, absolute⟩ := areAbsolute projectPlan variableWorld settings "/w" assembled
    (by decide) load.1 returned
  have isPath := Resource.path_of_id known
  rw [Resource.path?, (Prod.mk.inj same).1,
    show rest? fileMark "file:conf/app.properties" = some "conf/app.properties" by decide] at isPath
  rw [← Option.some.inj isPath] at absolute
  exact absurd absolute (by decide)

end SettingsPlan

end LayeredConfig
