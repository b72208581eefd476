/-
This file says which resources of the class path lie under the resource roots.

A location of the class path is joined to each root before the dots of the path are taken away, so
`..` in it may lead out of the root; and the variant of a root itself stands beside it. Nothing else
leads out but a profile with dots between the slashes of its name. What a location without such dots
means is a path of names under a root; and the variant of a file there lies under the root, too, if
the name of its profile does not climb further than the file lies below the root.
-/

import LayeredConfig.Proofs.Import.Identity
import LayeredConfig.Proofs.Path.Climbing
import LayeredConfig.Settings.Check

namespace LayeredConfig

open LayeredConfig.Path Text

/-! ### Paths in a directory -/

namespace Path

/-- A path leads to a directory and, behind it, never out of it again. -/
def LiesIn (directory path : String) : Prop :=
  isAbsolute path = isAbsolute directory ∧ turns directory.toList <+: turns path.toList ∧
    (reduce [] ((turns path.toList).drop (turns directory.toList).length)).isSome = true

instance (directory path : String) : Decidable (LiesIn directory path) :=
  inferInstanceAs (Decidable (_ ∧ _ ∧ _))

/-- A path lies in a directory if its turns behind those of the directory never climb above it. -/
theorem liesIn_of_turns {directory path : String} (parts : List Part)
    (same : isAbsolute path = isAbsolute directory)
    (turned : turns path.toList = turns directory.toList ++ parts)
    (stays : ClimbsWithin 0 parts) : LiesIn directory path := by
  refine ⟨same, turned ▸ List.prefix_append _ _, ?_⟩
  rw [turned, List.drop_left]
  exact (isSome_reduce_iff [] parts).mpr stays

/-- To join a path behind a directory that is read from another one adds the turns of the path. -/
theorem turns_join_join {path : String} (relative : isAbsolute path = false)
    (base directory : String) :
    turns (join base (join directory path)).toList =
      turns (join base directory).toList ++ turns path.toList := by
  have sameKind := isAbsolute_join_of_relative relative directory
  by_cases absolute : isAbsolute directory = true
  · have leads (other : String) (isAbsoluteToo : isAbsolute other = true) :
        join base other = other := by
      rw [join, isAbsoluteToo, Bool.true_or, if_pos rfl]
    rw [leads _ (sameKind.trans absolute), leads _ absolute, turns_join relative]
  · rw [Bool.not_eq_true] at absolute
    rw [turns_join (sameKind.trans absolute), turns_join absolute, turns_join relative,
      List.append_assoc]

theorem relative_dropWhile_slash (path : List Char) :
    isAbsolute (String.ofList (path.dropWhile (· = '/'))) = false := by
  rw [← Bool.not_eq_true, isAbsolute_iff, String.toList_ofList]
  intro isSlash
  have noSlash := List.head?_dropWhile_not (· = '/') path
  rw [isSlash] at noSlash
  cases noSlash

theorem turns_dropWhile_slash (path : List Char) :
    turns (path.dropWhile (· = '/')) = turns path := by
  induction path with
  | nil => rfl
  | cons c rest inductionHypothesis =>
    rw [List.dropWhile_cons]
    split
    · next isSlash =>
      rw [inductionHypothesis, of_decide_eq_true isSlash]
      exact (turns_append [] rest).symm
    · rfl

end Path

/-! ### Names of variants -/

/-- The name of a profile, behind a hyphen, does not climb above a height. It is read with a dot
behind it, too: before the extension of a file like `app.`, a last part of one dot becomes `..`. -/
def Profiles.StaysWithin (height : Nat) (profile : String) : Prop :=
  ∀ behind ∈ ["", "."], ClimbsWithin height (turns ("-" ++ profile ++ behind).toList)

instance (height : Nat) (profile : String) : Decidable (Profiles.StaysWithin height profile) :=
  inferInstanceAs (Decidable (∀ behind ∈ _, _))

namespace Path

variable {height : Nat}

/-- What stands behind a hyphen goes on from a first name. -/
theorem turns_behind_hyphen {before : List Char} (whole : '/' ∉ before) (hyphened : '-' ∈ before)
    (chars : List Char) :
    ∃ name, turns (before ++ chars) = .name name :: innerParts (cutChars '/' chars).tail := by
  obtain ⟨first, later, pieces, longer⟩ := cutChars_append_left whole chars
  have isHyphened : '-' ∈ before ++ first := List.mem_append_left _ hyphened
  have isName : IsName (before ++ first) := by
    refine ⟨List.ne_nil_of_mem isHyphened, ?_, ?_, ?_⟩
    · exact not_mem_of_mem_cutChars (longer ▸ List.mem_cons_self)
    · exact fun isDot => absurd (isDot ▸ isHyphened) (by decide)
    · exact fun areDots => absurd (areDots ▸ isHyphened) (by decide)
  refine ⟨before ++ first, ?_⟩
  rw [turns, longer, pieces, List.tail_cons, innerParts_of_name isName]

/-- What stands before a hyphen does not matter to how far a path climbs. -/
theorem climbsWithin_behind {before : List Char} (whole : '/' ∉ before) (hyphened : '-' ∈ before)
    (chars : List Char) :
    ClimbsWithin height (turns (before ++ chars)) ↔ ClimbsWithin height (turns ('-' :: chars)) := by
  obtain ⟨name, turned⟩ := turns_behind_hyphen whole hyphened chars
  obtain ⟨other, turnedToo⟩ := turns_behind_hyphen (show '/' ∉ ['-'] by decide)
    List.mem_cons_self chars
  rw [turned, show turns ('-' :: chars) = _ from turnedToo, climbsWithin_name, climbsWithin_name]

/-- With an extension behind it, a path climbs no further than by itself or with a dot behind it. -/
theorem climbsWithin_extended {chars extension : List Char} (whole : '/' ∉ '.' :: extension)
    (undotted : '.' ∉ extension) (stays : ClimbsWithin height (turns chars))
    (staysDotted : ClimbsWithin height (turns (chars ++ ['.']))) :
    ClimbsWithin height (turns (chars ++ '.' :: extension)) := by
  cases extension with
  | nil => exact staysDotted
  | cons c rest =>
    obtain ⟨earlier, last, pieces, longer⟩ := cutChars_append_right whole chars
    have length : (last ++ '.' :: c :: rest).length = last.length + rest.length + 2 :=
      List.length_append
    have isName : IsName (last ++ '.' :: c :: rest) := by
      refine ⟨List.append_ne_nil_of_right_ne_nil _ (List.cons_ne_nil _ _), ?_, ?_, ?_⟩
      · exact not_mem_of_mem_cutChars
          (longer ▸ List.mem_append_right _ List.mem_cons_self)
      · intro isDot
        rw [isDot, List.length_singleton] at length
        omega
      · intro areDots
        rw [areDots, show ['.', '.'].length = 2 from rfl] at length
        obtain rfl : last = [] := List.length_eq_zero_iff.mp (by omega)
        obtain ⟨_, others⟩ := List.cons.inj areDots
        exact undotted ((List.cons.inj others).1 ▸ List.mem_cons_self)
    rw [turns, pieces, innerParts_append] at stays
    rw [turns, longer, innerParts_append, innerParts_of_isName isName]
    exact stays.of_append.append_name _

end Path

namespace FileFinder

/-- There is no dot in an extension but the one before it. -/
theorem dotted_cases (name : String) :
    (dotted (splitExtension name).2).toList = [] ∨
      ∃ extension, (dotted (splitExtension name).2).toList = '.' :: extension ∧
        '.' ∉ extension := by
  cases isCut : cutOnce? '.' name.toList.reverse with
  | none =>
    rw [splitExtension, isCut]
    exact .inl rfl
  | some parts =>
    obtain ⟨extension, stem⟩ := parts
    cases stem with
    | nil =>
      rw [splitExtension, isCut]
      exact .inl rfl
    | cons c stem =>
      rw [splitExtension, isCut]
      refine .inr ⟨extension.reverse, by simp [dotted], ?_⟩
      rw [List.mem_reverse]
      exact not_mem_of_cutOnce? isCut

section VariantName

variable {name : String} (isName : IsName name.toList) {profile : String}

include isName

theorem whole_of_stem : '/' ∉ (splitExtension name).1.toList ++ "-".toList := by
  rw [List.mem_append, not_or]
  exact ⟨(whole_of_isName isName).1, by decide⟩

theorem relative_variantName : isAbsolute (variantName name profile) = false := by
  rw [← Bool.not_eq_true, isAbsolute_iff, variantName]
  simp only [String.toList_append]
  have filled : (splitExtension name).1.toList ++ "-".toList ≠ [] :=
    List.append_ne_nil_of_right_ne_nil _ (List.cons_ne_nil _ _)
  rw [List.append_assoc, List.head?_append_of_ne_nil _ filled]
  exact fun isSlash => whole_of_stem isName (List.mem_of_head? isSlash)

/-- The name of a variant climbs no further than that of the profile. -/
theorem climbsWithin_variantName {height : Nat} (stays : Profiles.StaysWithin height profile) :
    ClimbsWithin height (turns (variantName name profile).toList) := by
  have hyphened : '-' ∈ (splitExtension name).1.toList ++ "-".toList :=
    List.mem_append_right _ List.mem_cons_self
  have plain : ClimbsWithin height (turns ('-' :: profile.toList)) := by
    have climbs := stays "" List.mem_cons_self
    rwa [String.append_empty, String.toList_append] at climbs
  have withDot : ClimbsWithin height (turns ('-' :: profile.toList ++ ['.'])) := by
    have climbs := stays "." (List.mem_cons_of_mem _ List.mem_cons_self)
    rwa [String.toList_append, String.toList_append] at climbs
  simp only [variantName, String.toList_append]
  rw [List.append_assoc, climbsWithin_behind (whole_of_stem isName) hyphened]
  rcases dotted_cases name with none | ⟨extension, some, undotted⟩
  · rwa [none, List.append_nil]
  · rw [some]
    exact climbsWithin_extended (some ▸ (whole_of_isName isName).2) undotted plain withDot

end VariantName

/-! ### Under the roots -/

/-- A path lies in one of the resource roots, which are read from the base directory. -/
def InRoots (finder : FileFinder) (path : String) : Prop :=
  ∃ root ∈ finder.roots, ∃ top, absolutize root finder.baseDirectory = .ok top ∧ LiesIn top path

/-- A resource has a path, and this lies in one of the roots. -/
def Contains (finder : FileFinder) (resource : Resource) : Prop :=
  ∃ path, resource.path? = some path ∧ finder.InRoots path

/-- A path has the given names behind those of a resource root. -/
def BelowRoot (finder : FileFinder) (inner : List (List Char)) (path : String) : Prop :=
  ∃ root ∈ finder.roots, ∃ names, (∀ name ∈ names, IsName name) ∧ (∀ name ∈ inner, IsName name) ∧
    absolutize root finder.baseDirectory = .ok (ofNames true names) ∧
    path = ofNames true (names ++ inner)

/-- How far below a root the directory with the files of a location is, if the location leads along
the given names. -/
def depth (location : Location) (names : List (List Char)) : Nat :=
  if isDirectoryLocation location then names.length else names.length - 1

variable {finder : FileFinder} {context : FindContext} {location : Location}

theorem BelowRoot.inRoots {inner : List (List Char)} {path : String}
    (under : finder.BelowRoot inner path) : finder.InRoots path := by
  obtain ⟨root, isRoot, names, areNames, areInner, isTop, rfl⟩ := under
  refine ⟨root, isRoot, _, isTop, liesIn_of_turns (inner.map Part.name) ?_ ?_ ?_⟩
  · rw [isAbsolute_ofNames, isAbsolute_ofNames]
  · rw [turns_ofNames (List.forall_mem_append.mpr ⟨areNames, areInner⟩), turns_ofNames areNames,
      List.map_append]
  · rw [← List.append_nil (inner.map _), climbsWithin_names]
    exact climbsWithin_nil

/-- A file in a directory below a root is below the root. -/
theorem BelowRoot.file {inner : List (List Char)} {directory name : String}
    (under : finder.BelowRoot inner directory) (isName : IsName name.toList) :
    finder.BelowRoot (inner ++ [name.toList]) (join directory name) := by
  obtain ⟨root, isRoot, names, areNames, areInner, isTop, rfl⟩ := under
  refine ⟨root, isRoot, names, areNames, ?_, isTop, ?_⟩
  · exact List.forall_mem_append.mpr ⟨areInner, List.forall_mem_singleton.mpr isName⟩
  · rw [join_ofNames (List.forall_mem_append.mpr ⟨areNames, areInner⟩) isName, List.append_assoc]

/-- The variant of a file below a root lies in the root, if the name of its profile does not climb
above the root. -/
theorem BelowRoot.variant {directory : List (List Char)} {last : List Char}
    {profile base variant : String} (under : finder.BelowRoot (directory ++ [last]) base)
    (stays : Profiles.StaysWithin directory.length profile)
    (isVariant : variantOf? profile base = some variant) : finder.InRoots variant := by
  obtain ⟨root, isRoot, names, areNames, areInner, isTop, rfl⟩ := under
  obtain ⟨inDirectory, isLast⟩ := List.forall_mem_append.mp areInner
  have isLast := List.forall_mem_singleton.mp isLast
  have before := List.forall_mem_append.mpr ⟨areNames, inDirectory⟩
  have isOwn : IsName (String.ofList last).toList := by rwa [String.toList_ofList]
  have isJoined : variant = join (ofNames true (names ++ directory))
      (variantName (String.ofList last) profile) := by
    rw [variantOf?_eq, ← List.append_assoc, fileName_ofNames before isLast,
      Option.map_some, withFileName, fileName_ofNames before isLast,
      parent_ofNames before isLast] at isVariant
    exact (Option.some.inj isVariant).symm
  refine ⟨root, isRoot, _, isTop, liesIn_of_turns (directory.map Part.name ++
    turns (variantName (String.ofList last) profile).toList) ?_ ?_ ?_⟩
  · rw [isJoined, isAbsolute_ofNames]
    exact isAbsolute_join (isAbsolute_ofNames _) _
  · rw [isJoined, turns_join (relative_variantName isOwn), turns_ofNames before,
      turns_ofNames areNames, List.map_append, List.append_assoc]
  · rw [climbsWithin_names, Nat.zero_add]
    exact climbsWithin_variantName isOwn stays

/-! ### What a location of the class path means -/

section Candidates

variable (absolute : isAbsolute finder.baseDirectory = true)

include absolute

section Names

variable {path : String} {names : List (List Char)} (relative : isAbsolute path = false)
  (stays : reduce [] (turns path.toList) = some names)

include relative stays

/-- A path that does not climb above its start leads to its own names behind those of a root. -/
theorem belowRoot_of_absolutize {root found : String} (isRoot : root ∈ finder.roots)
    (isFound : absolutize (join root path) finder.baseDirectory = .ok found) :
    finder.BelowRoot names.reverse found := by
  rw [absolutize_eq] at isFound
  obtain ⟨all, reduced, rfl⟩ := resolveDots_eq_ok.mp isFound
  rw [turns_join_join relative, reduce_append] at reduced
  obtain ⟨top, isTop, reduced⟩ := Option.bind_eq_some_iff.mp reduced
  have behindTop : reduce ([] ++ top) (turns path.toList) = some (names ++ top) :=
    reduce_append_names stays
  have same : all = names ++ top := Option.some.inj (reduced.symm.trans behindTop)
  refine ⟨root, isRoot, top.reverse, ?_, ?_, ?_, ?_⟩
  · exact areNames_of_reduce isTop
  · exact areNames_of_reduce stays
  · rw [absolutize_eq]
    exact resolveDots_eq_ok.mpr ⟨top, isTop, by rw [isAbsolute_join absolute]⟩
  · rw [isAbsolute_join absolute, same, List.reverse_append]

theorem belowRoot_of_underRoots {roots paths : List String}
    (given : ∀ root ∈ roots, root ∈ finder.roots)
    (areFound : finder.underRoots path roots = .ok paths) :
    ∀ found ∈ paths, finder.BelowRoot names.reverse found := by
  induction roots generalizing paths with
  | nil =>
    cases areFound
    exact nofun
  | cons root rest inductionHypothesis =>
    obtain ⟨isRoot, given⟩ := List.forall_mem_cons.mp given
    obtain ⟨first, isFirst, areFound⟩ := bind_eq_ok.mp areFound
    obtain ⟨others, areOthers, areFound⟩ := bind_eq_ok.mp areFound
    cases areFound
    exact List.forall_mem_cons.mpr
      ⟨belowRoot_of_absolutize absolute relative stays isRoot isFirst,
        inductionHypothesis given areOthers⟩

end Names

variable {written : String} {names : List (List Char)}
  (inRoots : rest? rootMark location.value = some written)
  (stays : reduce [] (parts written) = some names)

include inRoots stays

theorem belowRoot_of_candidates {paths : List String}
    (areCandidates : finder.candidates context location = .ok paths) :
    ∀ path ∈ paths, finder.BelowRoot names.reverse path := by
  rw [candidates, inRoots] at areCandidates
  refine belowRoot_of_underRoots absolute (relative_dropWhile_slash written.toList) ?_
    (fun _ isRoot => isRoot) areCandidates
  rw [String.toList_ofList, turns_dropWhile_slash, ← reduce_parts, stays]

/-- The files that the location means are below a root, and if the location is a directory or leads
anywhere at all, they are in a directory as far below it as the location says. -/
theorem belowRoot_of_meantFiles {paths : List String} {path : String}
    (areCandidates : finder.candidates context location = .ok paths)
    (isMeant : path ∈ meantFiles location paths) :
    ∃ inner, finder.BelowRoot inner path ∧
      (isDirectoryLocation location = true ∨ names ≠ [] → ∃ directory last,
        inner = directory ++ [last] ∧ directory.length = depth location names) := by
  have under := belowRoot_of_candidates absolute inRoots stays areCandidates
  rw [meantFiles] at isMeant
  split at isMeant
  · next isDirectory =>
    obtain ⟨directory, isCandidate, isFile⟩ := List.mem_flatMap.mp isMeant
    obtain ⟨extension, isExtension, rfl⟩ := List.mem_map.mp isFile
    refine ⟨_, (under directory isCandidate).file (isName_of_extension isExtension),
      fun _ => ⟨_, _, rfl, ?_⟩⟩
    rw [depth, if_pos isDirectory, List.length_reverse]
  · next notDirectory =>
    refine ⟨_, under path isMeant, fun leads => ?_⟩
    obtain ⟨last, directory, rfl⟩ :=
      List.exists_cons_of_ne_nil (leads.resolve_left notDirectory)
    refine ⟨directory.reverse, last, List.reverse_cons, ?_⟩
    rw [depth, if_neg notDirectory, List.length_reverse]
    rfl

end Candidates

/-- Let the base directory be absolute. If a location of the class path does not climb above its
start, then what is found for it lies in one of the roots; and so do its variants, if it is a
directory or leads anywhere at all, unless the name of a profile climbs above the root. -/
theorem found_in_roots (absolute : isAbsolute finder.baseDirectory = true) {written : String}
    (inRoots : rest? rootMark location.value = some written) {names : List (List Char)}
    (stays : reduce [] (parts written) = some names) :
    (∀ found, finder.find context location = .ok found →
      ∀ resource ∈ found, finder.Contains resource) ∧
    (isDirectoryLocation location = true ∨ names ≠ [] → ∀ profiles found,
      finder.findVariants context location profiles = .ok found → ∀ resource ∈ found,
        (∀ profile ∈ resource.profile, Profiles.StaysWithin (depth location names) profile) →
          finder.Contains resource) := by
  constructor
  · intro found isFound resource member
    obtain ⟨paths, areCandidates, areFiles⟩ := file_of_find isFound
    obtain ⟨path, isMeant, rfl⟩ := areFiles resource member
    obtain ⟨_, under, _⟩ := belowRoot_of_meantFiles absolute inRoots stays areCandidates isMeant
    exact ⟨path, Resource.path_of_id rfl, under.inRoots⟩
  · intro leads profiles found isFound resource member staysWithin
    obtain ⟨paths, areCandidates, areVariants⟩ := file_of_findVariants isFound
    obtain ⟨base, isMeant, profile, variant, isVariant, rfl⟩ := areVariants resource member
    obtain ⟨_, under, below⟩ := belowRoot_of_meantFiles absolute inRoots stays areCandidates
      isMeant
    obtain ⟨directory, last, rfl, isDepth⟩ := below leads
    exact ⟨variant, Resource.path_of_id rfl,
      under.variant (isDepth ▸ staysWithin profile rfl) isVariant⟩

/-- A finder in `/vfs` that looks for the class path in `/vfs/res`. -/
def vfsFinder (files : FileSystem) : FileFinder where
  world := ⟨files, some "/vfs", "/root", []⟩
  baseDirectory := "/vfs"
  roots := ["res"]

/-- A file of the class path in a directory, and its variant for a profile that leads out of it. -/
def insideFiles : FileSystem :=
  ((FileSystem.empty.addFile ["vfs", "res", "conf", "app.yml"] .empty).addFile
    ["vfs", "res", "de.yml"] .empty).addDirectory ["vfs", "res", "conf", "app-eu"]

/-- The location of this file, with dots that lead back at once. -/
def insideLocation : Location := ⟨"classpath:/x/../conf/app.yml", false⟩

/-- The file and its variant are found in the root, also where the variant climbs up to the root. -/
theorem found_in_roots_insideFiles :
    isAbsolute (vfsFinder insideFiles).baseDirectory = true ∧
    rest? rootMark insideLocation.value = some "/x/../conf/app.yml" ∧
    reduce [] (parts "/x/../conf/app.yml") = some ["app.yml".toList, "conf".toList] ∧
    Profiles.StaysWithin 1 "eu/../../de" ∧
    (∃ found, (vfsFinder insideFiles).find ⟨none, none⟩ insideLocation = .ok found ∧
      found.map Resource.id = ["file:/vfs/res/conf/app.yml"] ∧
      ∀ resource ∈ found, (vfsFinder insideFiles).Contains resource) ∧
    ∃ found, (vfsFinder insideFiles).findVariants ⟨none, none⟩ insideLocation
        (.ofLists ["eu/../../de"] []) = .ok found ∧
      found.map Resource.id = ["file:/vfs/res/conf/app-eu/../../de.yml"] ∧
      ∀ resource ∈ found, (vfsFinder insideFiles).Contains resource := by
  have absolute : isAbsolute (vfsFinder insideFiles).baseDirectory = true := by decide
  have inRoots : rest? rootMark insideLocation.value = some "/x/../conf/app.yml" := by decide
  have stays : reduce [] (parts "/x/../conf/app.yml") =
      some ["app.yml".toList, "conf".toList] := by
    decide
  have staysWithin : Profiles.StaysWithin 1 "eu/../../de" := by decide
  have isDepth : depth insideLocation ["app.yml".toList, "conf".toList] = 1 := by decide
  have files : ((vfsFinder insideFiles).find ⟨none, none⟩ insideLocation).toOption.map
      (List.map Resource.id) = some ["file:/vfs/res/conf/app.yml"] := by
    decide +kernel
  have variants : ((vfsFinder insideFiles).findVariants ⟨none, none⟩ insideLocation
      (.ofLists ["eu/../../de"] [])).toOption.map
        (fun found => (found.map Resource.id, found.map Resource.profile)) =
        some (["file:/vfs/res/conf/app-eu/../../de.yml"], [some "eu/../../de"]) := by
    decide +kernel
  obtain ⟨found, isFound, ids⟩ := exists_ok_of_map files
  obtain ⟨others, areVariants, read⟩ := exists_ok_of_map variants
  obtain ⟨otherIds, profiles⟩ := Prod.mk.inj read
  refine ⟨absolute, inRoots, stays, staysWithin,
    ⟨found, isFound, ids, (found_in_roots absolute inRoots stays).1 found isFound⟩,
    others, areVariants, otherIds, fun resource member => ?_⟩
  refine (found_in_roots absolute inRoots stays).2 (.inr (List.cons_ne_nil _ _)) _ others
    areVariants resource member fun profile isProfile => ?_
  have among := List.mem_map_of_mem (f := Resource.profile) member
  rw [profiles, List.mem_singleton, isProfile] at among
  rw [isDepth, Option.some.inj among]
  exact staysWithin

/-- Files beside a root and in it. -/
def outsideFiles : FileSystem :=
  (((FileSystem.empty.addFile ["vfs", "y.yml"] .empty).addFile ["vfs", "res-prod"] .empty).addFile
    ["vfs", "res", "app.yml"] .empty).addDirectory ["vfs", "res", "app-x"]

/-- Out of a root lead a location that climbs, the variant of the root itself, and the variant for a
profile with dots in its name, though the settings accept this. -/
theorem found_outside_roots :
    identities ((vfsFinder outsideFiles).find ⟨none, none⟩ ⟨"classpath:../y.yml", false⟩) =
      some ["file:/vfs/y.yml"] ∧
    identities ((vfsFinder outsideFiles).findVariants ⟨none, none⟩ ⟨"classpath:.", false⟩
      (.ofLists ["prod"] [])) = some ["file:/vfs/res-prod"] ∧
    identities ((vfsFinder outsideFiles).findVariants ⟨none, none⟩ ⟨"classpath:app.yml", false⟩
      (.ofLists ["x/../../y"] [])) = some ["file:/vfs/res/app-x/../../y.yml"] ∧
    (∀ path ∈ ["/vfs/y.yml", "/vfs/res-prod", "/vfs/res/app-x/../../y.yml"],
      ¬(vfsFinder outsideFiles).InRoots path) ∧
    ¬∀ (finder : FileFinder) (context : FindContext) (location : Location) (profiles : Profiles),
      isAbsolute finder.baseDirectory = true → startsWith rootMark location.value = true →
      (∀ profile ∈ profiles.accepted, Settings.profileFault? profile = none) →
      ∀ found, finder.find context location = .ok found ∨
          finder.findVariants context location profiles = .ok found →
        ∀ resource ∈ found, finder.Contains resource := by
  have files : identities ((vfsFinder outsideFiles).find ⟨none, none⟩
      ⟨"classpath:../y.yml", false⟩) = some ["file:/vfs/y.yml"] := by
    decide +kernel
  have isTop : absolutize "res" "/vfs" = .ok "/vfs/res" := ok_of_toOption (by decide)
  have outside (path : String) (leaves : ¬LiesIn "/vfs/res" path) :
      ¬(vfsFinder outsideFiles).InRoots path := by
    rintro ⟨root, isRoot, top, isOther, lies⟩
    obtain rfl := List.mem_singleton.mp isRoot
    obtain rfl := Except.ok.inj (isTop.symm.trans isOther)
    exact leaves lies
  refine ⟨files, by decide +kernel, by decide +kernel, ?_, fun contained => ?_⟩
  · have leave : ∀ path ∈ ["/vfs/y.yml", "/vfs/res-prod", "/vfs/res/app-x/../../y.yml"],
        ¬LiesIn "/vfs/res" path := by
      decide
    exact fun path member => outside path (leave path member)
  · obtain ⟨found, isFound, ids⟩ := exists_ok_of_map files
    obtain ⟨resource, rfl, isId⟩ := List.map_eq_singleton_iff.mp ids
    obtain ⟨path, isPath, inRoots⟩ := contained (vfsFinder outsideFiles) ⟨none, none⟩
      ⟨"classpath:../y.yml", false⟩ (.ofLists ["prod"] []) (by decide) (by decide) (by decide) _
      (.inl isFound) resource List.mem_cons_self
    have isFile : resource.path? = some "/vfs/y.yml" := Resource.path_of_id isId
    obtain rfl := Option.some.inj (isFile.symm.trans isPath)
    exact outside _ (by decide) inRoots

end FileFinder

end LayeredConfig
