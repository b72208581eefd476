/-
This file says under which identities a finder of files returns what it finds.

Every candidate of a location is made absolute, with its dots taken away. So the base of a search is
absolute if the base directory is: it is this directory, or the parent of a path that the finder
itself returned before. A candidate is then normal, and so is a file in a candidate directory. A
variant stands beside such a file, and has a normal path unless its profile has a slash in its name.
-/

import LayeredConfig.Import.FileFinder
import LayeredConfig.Proofs.Path.Normal

namespace LayeredConfig

open LayeredConfig.Path Text

/-! ### Identities -/

namespace Resource

/-- The profile of the resource, if it has one, has no slash in its name. -/
def Slashless (resource : Resource) : Prop :=
  ∀ profile ∈ resource.profile, '/' ∉ profile.toList

/-- A resource is known by an absolute path, which is normal if its profile has no slash. -/
def Placed (resource : Resource) : Prop :=
  ∃ path, resource.id = fileMark ++ path ∧ isAbsolute path = true ∧
    (resource.Slashless → Normal path)

theorem path_of_id {resource : Resource} {path : String} (known : resource.id = fileMark ++ path) :
    resource.path? = some path := by
  rw [path?, known, rest?, String.toList_append, after?_append]
  exact congrArg some String.ofList_toList

end Resource

namespace FileFinder

variable {finder : FileFinder} {context : FindContext} {location : Location}

/-- The resources that a finder returns when it is asked for an initial layer, or for one that came
from a resource it has returned. -/
inductive Returned (finder : FileFinder) : Resource → Prop where
  | base {context : FindContext} {location : Location} {found : List Resource}
      {resource : Resource} (asked : ∀ parent ∈ context.parent, Returned finder parent)
      (isFound : finder.find context location = .ok found) (member : resource ∈ found) :
      Returned finder resource
  | variant {context : FindContext} {location : Location} {profiles : Profiles}
      {found : List Resource} {resource : Resource}
      (asked : ∀ parent ∈ context.parent, Returned finder parent)
      (isFound : finder.findVariants context location profiles = .ok found)
      (member : resource ∈ found) : Returned finder resource

/-! ### Candidates -/

section Candidates

variable (absolute : isAbsolute finder.baseDirectory = true)

include absolute

theorem absolute_baseOf (asked : ∀ parent ∈ context.parent, parent.Placed) :
    isAbsolute (finder.baseOf context) = true := by
  unfold baseOf
  split
  · next directory isParent =>
    obtain ⟨path, hasPath, isParent⟩ := Option.bind_eq_some_iff.mp isParent
    obtain ⟨parent, isAsked, hasPath⟩ := Option.bind_eq_some_iff.mp hasPath
    obtain ⟨own, known, isAbsolute, _⟩ := asked parent isAsked
    obtain rfl := Option.some.inj ((Resource.path_of_id known).symm.trans hasPath)
    exact isAbsolute_parent isAbsolute isParent
  · exact absolute

theorem normal_of_underRoots {path : String} {roots paths : List String}
    (isFound : finder.underRoots path roots = .ok paths) : ∀ path ∈ paths, Normal path := by
  induction roots generalizing paths with
  | nil =>
    cases isFound
    exact nofun
  | cons root rest inductionHypothesis =>
    obtain ⟨first, isFirst, isFound⟩ := bind_eq_ok.mp isFound
    obtain ⟨others, areOthers, isFound⟩ := bind_eq_ok.mp isFound
    cases isFound
    intro path member
    rcases List.mem_cons.mp member with rfl | isOther
    · exact normal_of_absolutize absolute isFirst
    · exact inductionHypothesis areOthers path isOther

/-- The candidates of a location are normal. -/
theorem normal_of_candidates (asked : ∀ parent ∈ context.parent, parent.Placed)
    {paths : List String} (areCandidates : finder.candidates context location = .ok paths) :
    ∀ path ∈ paths, Normal path := by
  unfold candidates at areCandidates
  split at areCandidates
  · exact normal_of_underRoots absolute areCandidates
  · obtain ⟨written, _, areCandidates⟩ := bind_eq_ok.mp areCandidates
    obtain ⟨path, isResolved, areCandidates⟩ := bind_eq_ok.mp areCandidates
    cases areCandidates
    intro other member
    rw [List.mem_singleton.mp member]
    exact normal_of_absolutize (absolute_baseOf absolute asked) isResolved

end Candidates

/-! ### Files of a directory and variants -/

theorem isName_of_extension {extension : String} (member : extension ∈ extensions) :
    IsName ("application." ++ extension).toList := by
  have each : ("application." ++ extension).toList ≠ [] ∧
      '/' ∉ ("application." ++ extension).toList ∧
      ("application." ++ extension).toList ≠ ['.'] ∧
      ("application." ++ extension).toList ≠ ['.', '.'] := by
    revert extension
    decide
  exact ⟨each.1, each.2.1, each.2.2.1, each.2.2.2⟩

theorem normal_of_directoryFiles {directory : String} (normal : Normal directory) :
    ∀ path ∈ directoryFiles directory, Normal path := by
  intro path member
  obtain ⟨extension, isExtension, rfl⟩ := List.mem_map.mp member
  exact normal.join (isName_of_extension isExtension)

/-- How an extension is written behind the stem, if there is one. -/
def dotted (extension : Option String) : String :=
  match extension with
  | some extension => "." ++ extension
  | none => ""

/-- A file name is its stem, and its extension behind a dot. -/
theorem stem_append_extension (name : String) :
    (splitExtension name).1 ++ dotted (splitExtension name).2 = name := by
  cases isCut : cutOnce? '.' name.toList.reverse with
  | none =>
    rw [splitExtension, isCut]
    exact String.append_empty
  | some parts =>
    obtain ⟨extension, stem⟩ := parts
    cases stem with
    | nil =>
      rw [splitExtension, isCut]
      exact String.append_empty
    | cons c stem =>
      rw [splitExtension, isCut]
      refine String.toList_injective ?_
      have whole := congrArg List.reverse (eq_of_cutOnce? isCut)
      rw [List.reverse_reverse, List.reverse_append, List.reverse_cons (a := '.'),
        List.append_assoc] at whole
      show (String.ofList (c :: stem).reverse ++
        ("." ++ String.ofList extension.reverse)).toList = _
      simp only [whole, String.toList_append, String.toList_ofList]
      rfl

/-- The name of the variant of a file with the given name. -/
def variantName (name profile : String) : String :=
  (splitExtension name).1 ++ "-" ++ profile ++ dotted (splitExtension name).2

/-- The variant of a file stands beside it. -/
theorem variantOf?_eq (profile path : String) :
    variantOf? profile path =
      (fileName? path).map fun name => withFileName path (variantName name profile) := rfl

/-- Neither the stem of a file name nor its extension has a slash in it. -/
theorem whole_of_isName {name : String} (isName : IsName name.toList) :
    '/' ∉ (splitExtension name).1.toList ∧ '/' ∉ (dotted (splitExtension name).2).toList := by
  have whole := isName.whole
  rwa [← stem_append_extension name, String.toList_append, List.mem_append, not_or] at whole

/-- The name of a variant is a name if the one of the profile has no slash. -/
theorem isName_of_variant {name profile : String} (isName : IsName name.toList)
    (whole : '/' ∉ profile.toList) : IsName (variantName name profile).toList := by
  obtain ⟨stemWhole, extensionWhole⟩ := whole_of_isName isName
  simp only [variantName, String.toList_append]
  have hyphened : '-' ∈ (splitExtension name).1.toList ++ "-".toList ++ profile.toList ++
      (dotted (splitExtension name).2).toList :=
    List.mem_append_left _ (List.mem_append_left _ (List.mem_append_right _ List.mem_cons_self))
  refine ⟨List.ne_nil_of_mem hyphened, ?_, fun isDot => ?_, fun areDots => ?_⟩
  · simp only [List.mem_append, not_or]
    exact ⟨⟨⟨stemWhole, by decide⟩, whole⟩, extensionWhole⟩
  · rw [isDot] at hyphened
    exact absurd hyphened (by decide)
  · rw [areDots] at hyphened
    exact absurd hyphened (by decide)

/-- The variant of a normal path is absolute, and it is normal if the profile has no slash. -/
theorem placed_of_variantOf {profile path variant : String} (normal : Normal path)
    (isVariant : variantOf? profile path = some variant) :
    isAbsolute variant = true ∧ ('/' ∉ profile.toList → Normal variant) := by
  rw [variantOf?_eq] at isVariant
  obtain ⟨name, hasName, rfl⟩ := Option.map_eq_some_iff.mp isVariant
  obtain ⟨same, isName⟩ := piece_of_fileName hasName
  rw [← same] at isName
  constructor
  · obtain ⟨directory, isParent⟩ := parent_of_fileName hasName
    rw [withFileName, hasName, isParent]
    exact isAbsolute_join (isAbsolute_parent normal.absolute isParent) _
  · exact fun whole => normal.withFileName hasName (isName_of_variant isName whole)

/-! ### What is returned -/

/-- The files that a location may mean, given its candidates: these, or the files in them. -/
def meantFiles (location : Location) (paths : List String) : List String :=
  if isDirectoryLocation location then paths.flatMap directoryFiles else paths

/-- What is found for all profiles is a file that the location means. -/
theorem file_of_find {found : List Resource} (isFound : finder.find context location = .ok found) :
    ∃ paths, finder.candidates context location = .ok paths ∧ ∀ resource ∈ found,
      ∃ path ∈ meantFiles location paths, resource = ⟨location, resourceId path, none⟩ := by
  obtain ⟨paths, areCandidates, isFound⟩ := bind_eq_ok.mp isFound
  refine ⟨paths, areCandidates, fun resource member => ?_⟩
  rw [meantFiles]
  split at isFound
  · next kind =>
    split at isFound
    · cases isFound
    · next directory isDirectory =>
      cases isFound
      obtain ⟨path, isFile, rfl⟩ := List.mem_map.mp member
      rw [if_pos kind]
      exact ⟨path, List.mem_flatMap.mpr
        ⟨directory, List.mem_of_find?_eq_some isDirectory, (List.mem_filter.mp isFile).1⟩, rfl⟩
  · next kind =>
    split at isFound
    · cases isFound
    · next path isFile =>
      cases isFound
      rw [if_neg kind]
      exact ⟨path, List.mem_of_find?_eq_some isFile, List.mem_singleton.mp member⟩

theorem mem_meantFiles_of_variantBases {paths : List String} {base : String}
    (member : base ∈ finder.variantBases location paths) : base ∈ meantFiles location paths := by
  unfold variantBases at member
  rw [meantFiles]
  split at member
  · next kind =>
    rw [if_pos kind]
    split at member
    · next directory isDirectory =>
      exact List.mem_flatMap.mpr ⟨directory, List.mem_of_find?_eq_some isDirectory, member⟩
    · cases member
  · next kind =>
    rw [if_neg kind]
    split at member
    · next isFile => exact List.mem_singleton.mp member ▸ List.mem_of_find?_eq_some isFile
    · exact member

/-- What is found for a profile is the variant of a file that the location means. -/
theorem file_of_findVariants {profiles : Profiles} {found : List Resource}
    (isFound : finder.findVariants context location profiles = .ok found) :
    ∃ paths, finder.candidates context location = .ok paths ∧ ∀ resource ∈ found,
      ∃ base ∈ meantFiles location paths, ∃ profile variant,
        variantOf? profile base = some variant ∧
          resource = ⟨location, resourceId variant, some profile⟩ := by
  obtain ⟨paths, areCandidates, isFound⟩ := bind_eq_ok.mp isFound
  cases isFound
  refine ⟨paths, areCandidates, fun resource member => ?_⟩
  obtain ⟨profile, _, member⟩ := List.mem_flatMap.mp member
  obtain ⟨variant, isTaken, rfl⟩ := List.mem_map.mp member
  have isThere : variant ∈ ((finder.variantBases location paths).filterMap
      (variantOf? profile)).filter finder.world.isFile := by
    split at isTaken
    · exact isTaken
    · exact List.mem_of_mem_take isTaken
  obtain ⟨base, isBase, isVariant⟩ := List.mem_filterMap.mp (List.mem_filter.mp isThere).1
  exact ⟨base, mem_meantFiles_of_variantBases isBase, profile, variant, isVariant, rfl⟩

theorem normal_of_meantFiles {paths : List String} (normal : ∀ path ∈ paths, Normal path) :
    ∀ path ∈ meantFiles location paths, Normal path := by
  intro path member
  rw [meantFiles] at member
  split at member
  · obtain ⟨directory, isCandidate, isFile⟩ := List.mem_flatMap.mp member
    exact normal_of_directoryFiles (normal directory isCandidate) path isFile
  · exact normal path member

section Returned

variable (absolute : isAbsolute finder.baseDirectory = true)

include absolute

theorem placed_of_find (asked : ∀ parent ∈ context.parent, parent.Placed) {found : List Resource}
    (isFound : finder.find context location = .ok found) : ∀ resource ∈ found, resource.Placed := by
  obtain ⟨paths, areCandidates, areFiles⟩ := file_of_find isFound
  intro resource member
  obtain ⟨path, isMeant, rfl⟩ := areFiles resource member
  have normal := normal_of_meantFiles (normal_of_candidates absolute asked areCandidates) path
    isMeant
  exact ⟨path, rfl, normal.absolute, fun _ => normal⟩

theorem placed_of_findVariants (asked : ∀ parent ∈ context.parent, parent.Placed)
    {profiles : Profiles} {found : List Resource}
    (isFound : finder.findVariants context location profiles = .ok found) :
    ∀ resource ∈ found, resource.Placed := by
  obtain ⟨paths, areCandidates, areVariants⟩ := file_of_findVariants isFound
  intro resource member
  obtain ⟨base, isMeant, profile, variant, isVariant, rfl⟩ := areVariants resource member
  have normal := normal_of_meantFiles (normal_of_candidates absolute asked areCandidates) base
    isMeant
  obtain ⟨isAbsolute, staysNormal⟩ := placed_of_variantOf normal isVariant
  exact ⟨variant, rfl, isAbsolute, fun whole => staysNormal (whole profile rfl)⟩

/-- If the base directory is absolute, all that the finder returns is known by absolute paths. -/
theorem Returned.placed {resource : Resource} (returned : finder.Returned resource) :
    resource.Placed := by
  induction returned with
  | base _ isFound member asked => exact placed_of_find absolute asked isFound _ member
  | variant _ isFound member asked => exact placed_of_findVariants absolute asked isFound _ member

end Returned

/-! ### Spellings -/

/-- The path that a location spells, read from the base of the search. -/
def spelled (finder : FileFinder) (context : FindContext) (location : Location) :
    Except Error String :=
  (expandTilde finder.world.home ((rest? fileMark location.value).getD location.value)).map
    (join (finder.baseOf context))

/-- A location that is not looked for under the roots means the path that it spells, without its
dots. -/
theorem candidates_of_spelled {path : String} (noRoot : rest? rootMark location.value = none)
    (spells : finder.spelled context location = .ok path) :
    finder.candidates context location = (resolveDots path).map ([·]) := by
  obtain ⟨written, expands, rfl⟩ := map_eq_ok.mp spells
  rw [candidates, noRoot]
  dsimp only
  rw [expands]
  show (absolutize written (finder.baseOf context) >>= fun path => pure [path]) = _
  rw [absolutize_eq]
  cases resolveDots (join (finder.baseOf context) written) <;> rfl

/-- The identities of what is found, unless the search fails. -/
def identities (outcome : Except Error (List Resource)) : Option (List String) :=
  outcome.toOption.map (List.map Resource.id)

theorem identities_find : identities (finder.find context location) =
    (finder.candidates context location).toOption.bind fun paths =>
      if isDirectoryLocation location then
        (paths.find? finder.world.isDirectory).map fun directory =>
          ((directoryFiles directory).filter finder.world.isFile).map resourceId
      else (paths.find? finder.world.isFile).map fun path => [resourceId path] := by
  unfold find
  cases finder.candidates context location with
  | error cause => rfl
  | ok paths =>
    show identities (if isDirectoryLocation location = true then _ else _) = ite _ _ _
    split
    · cases paths.find? finder.world.isDirectory with
      | none => rfl
      | some directory => exact congrArg some List.map_map
    · cases paths.find? finder.world.isFile <;> rfl

theorem identities_findVariants (profiles : Profiles) :
    identities (finder.findVariants context location profiles) =
      (finder.candidates context location).toOption.map fun paths =>
        profiles.accepted.flatMap fun profile =>
          (finder.variantsFor location (finder.variantBases location paths) profile).map
            Resource.id := by
  unfold findVariants
  cases finder.candidates context location with
  | error cause => rfl
  | ok paths => exact congrArg some List.map_flatMap

end FileFinder

end LayeredConfig
