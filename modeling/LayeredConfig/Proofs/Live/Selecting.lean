/-
This file says which layers of a final tree may still select profiles.

A layer depends on profiles if it takes no part while they are unknown: its bundle is for a profile,
its resource is, or it has a condition. The check at the end of a resolution looks at the bundle and
at the condition, but not at the resource. So a layer that declares a profile property slips through
if nothing but its resource is for a profile. Readers that mark the bundle of such a resource as
well leave no such layer; the readers of files do so.
-/

import LayeredConfig.Import.FileReader
import LayeredConfig.Proofs.Import.Table
import LayeredConfig.Proofs.Layer.Activity
import LayeredConfig.Proofs.Live.Completion

namespace LayeredConfig

/-! ### The check -/

namespace LayerTree

/-- The check passes exactly if no layer that it looks at declares a profile property. -/
theorem checkSelecting_eq_ok {layers : List Layer} :
    checkSelecting layers = .ok () ↔ ∀ layer ∈ layers, dependsOnProfiles layer = true →
      ∀ name ∈ PropertyName.selecting, layer.declares name = false := by
  induction layers with
  | nil => exact iff_of_true rfl nofun
  | cons layer rest inductionHypothesis =>
    rw [checkSelecting, List.forall_mem_cons, ← inductionHypothesis]
    split
    · next depends =>
      rw [selectingProperty?]
      cases declared : PropertyName.selecting.find? layer.declares with
      | none =>
        rw [List.find?_eq_none] at declared
        refine (and_iff_right fun _ name isName => ?_).symm
        exact Bool.not_eq_true _ ▸ declared name isName
      | some name =>
        refine iff_of_false nofun fun ⟨undeclared, _⟩ => ?_
        have declares := List.find?_some declared
        rw [undeclared depends name (List.mem_of_find?_eq_some declared)] at declares
        cases declares
    · next independent =>
      exact (and_iff_right fun depends => absurd depends independent).symm

/-- A bound layer that takes no part while profiles are unknown is looked at by the check, or its
resource is for a profile. -/
theorem depends_or_tagged {layer : Layer} (isBound : layer.role.isFound = false)
    (inactive : layer.isActive none = false) :
    dependsOnProfiles layer = true ∨
      ∃ resource profile, layer.resource? = some resource ∧ resource.profile = some profile := by
  have ofOrigin {origin : Origin} {condition : Option Condition}
      (inactive : (Layer.originActive none origin &&
        Layer.conditionActive none condition) = false) :
      (origin.profileSpecific || condition.isSome) = true ∨
        ∃ profile, origin.resource.profile = some profile := by
    cases special : origin.profileSpecific with
    | true => exact Or.inl rfl
    | false =>
      cases tagged : origin.resource.profile with
      | some profile => exact Or.inr ⟨profile, rfl⟩
      | none =>
        rw [Layer.originActive, special, tagged] at inactive
        cases condition with
        | none => cases inactive
        | some => exact Or.inl rfl
  rw [Layer.isActive_eq] at inactive
  unfold dependsOnProfiles Layer.isProfileSpecific Layer.condition? Layer.resource? Layer.origin?
  cases role : layer.role with
  | root | initial =>
    rw [role] at inactive
    cases inactive
  | found =>
    rw [role] at isBound
    cases isBound
  | bound origin source declared | expanded origin source declared =>
    rw [role] at inactive
    refine (ofOrigin inactive).imp_right fun isTagged => ?_
    obtain ⟨profile, tagged⟩ := isTagged
    exact ⟨origin.resource, profile, rfl, tagged⟩

end LayerTree

/-! ### Readers that mark variants -/

namespace LiveRepository

open LayerTree

/-- At any time, the readers mark the bundles of resources for a profile as for a profile. -/
def MarksVariants (live : LiveRepository) : Prop :=
  ∀ reader ∈ live.readers, ∀ calls resource bundle, (reader calls).read resource = .ok bundle →
    resource.profile.isSome = true → bundle.profileSpecific = true

section Comes

variable {live : LiveRepository} {initial : List Source} {request : ProfileRequest}
  {known : Option Profiles} {tree : LayerTree} {expansions : List Expansion}

/-- In all trees, what was found for a profile is marked so. -/
theorem Comes.marked (marks : live.MarksVariants)
    (comes : live.Comes initial request known tree expansions) :
    ∀ mark ∈ tree.marks, ∀ origin, mark.origin? = some origin →
      origin.resource.profile.isSome = true → origin.profileSpecific = true := by
  induction comes with
  | start bound =>
    intro mark member origin isOrigin
    rw [origin_start bound member] at isOrigin
    cases isOrigin
  | step comes selected worked inductionHypothesis =>
    obtain ⟨gathered, stepped, loads, _⟩ := stepped_with_loads comes.sound selected worked
    intro mark member origin isOrigin tagged
    rcases stepped.mem_marks.mp member with isOld | isNew
    · exact inductionHypothesis mark isOld origin isOrigin tagged
    · obtain ⟨load, isLoad, isFind⟩ := mem_newMarks isNew
      obtain ⟨reader, isReader, calls, read⟩ := loads load isLoad
      rw [origin_of_find isFind] at isOrigin
      obtain rfl := Option.some.inj isOrigin
      exact marks reader isReader calls load.1 load.2 read tagged
  | learn _ _ _ inductionHypothesis => exact inductionHypothesis

end Comes

/-- The readers of files mark the bundles of variants. -/
theorem marksVariants_ofFiles (world : World) (baseDirectory : String) (roots : List String)
    (policy : MissingPolicy) :
    (Repository.ofFiles world baseDirectory roots policy).live.MarksVariants := by
  intro reader isReader calls resource bundle read tagged
  obtain ⟨fixed, isFixed, rfl⟩ := List.mem_map.mp isReader
  have ofFormat {format : FileFormat} (read : format.read world resource = .ok bundle) :
      bundle.profileSpecific = true := by
    obtain ⟨text, _, read⟩ := bind_eq_ok.mp read
    split at read
    · cases read
      exact tagged
    · cases read
  rcases List.mem_cons.mp isFixed with rfl | isYaml
  · exact ofFormat read
  · rw [List.mem_singleton.mp isYaml] at read
    exact ofFormat read

/-! ### The final tree -/

/-- Where a resolution succeeds, a layer that depends on profiles and declares a profile property
has no bundle for a profile and no condition, but a resource for a profile; and if the readers mark
the bundles of such resources, there is no such layer. -/
theorem selecting_of_resolve {live : LiveRepository} {initial : List Source}
    {request : ProfileRequest} {configuration : Configuration}
    (succeeded : (live.resolve initial request []).1 = .ok configuration) :
    (∀ layer ∈ configuration.tree.layers, layer.isActive none = false →
      ∀ name ∈ PropertyName.selecting, layer.declares name = true →
        layer.isProfileSpecific = false ∧ layer.condition? = none ∧
          ∃ resource profile, layer.resource? = some resource ∧
            resource.profile = some profile) ∧
    (live.MarksVariants → ∀ layer ∈ configuration.tree.layers, layer.isActive none = false →
      ∀ name ∈ PropertyName.selecting, layer.declares name = false) := by
  obtain ⟨_, _, completed⟩ := completed_of_resolve succeeded
  obtain ⟨⟨expansions, comes, _⟩, finished⟩ :=
    (leaves_resolve live initial request).of_eq_ok (Prod.ext succeeded rfl)
  have checked := checkSelecting_eq_ok.mp completed.checked
  have slips : ∀ layer ∈ configuration.tree.layers, layer.isActive none = false →
      ∀ name ∈ PropertyName.selecting, layer.declares name = true →
        layer.isProfileSpecific = false ∧ layer.condition? = none ∧
          ∃ resource profile, layer.resource? = some resource ∧
            resource.profile = some profile := by
    intro layer member inactive name isName declares
    have independent : dependsOnProfiles layer = false := by
      by_contra depends
      rw [checked layer member (Bool.not_eq_false _ ▸ depends) name isName] at declares
      cases declares
    have tagged := (depends_or_tagged (done_of_next_none finished member).1 inactive).resolve_left
      fun depends => Bool.false_ne_true (independent.symm.trans depends)
    rw [dependsOnProfiles, Bool.or_eq_false_iff, Option.isSome_eq_false_iff,
      Option.isNone_iff_eq_none] at independent
    exact ⟨independent.1, independent.2, tagged⟩
  refine ⟨slips, fun marks layer member inactive name isName => ?_⟩
  by_contra declares
  obtain ⟨unmarked, _, resource, profile, isResource, tagged⟩ :=
    slips layer member inactive name isName (Bool.not_eq_false _ ▸ declares)
  obtain ⟨origin, isOrigin, rfl⟩ := Option.map_eq_some_iff.mp isResource
  have isMarked := comes.marked marks layer.mark (mark_mem member) origin isOrigin
    (by rw [tagged]; rfl)
  rw [Layer.isProfileSpecific, isOrigin] at unmarked
  exact Bool.false_ne_true (unmarked.symm.trans isMarked)

/-- A bundle without sources, and a variant of it that declares a name and is not marked. -/
def variantTable (name : String) : List (String × Bundle) :=
  [("a", ⟨[], false⟩), ("a#prod", ⟨[.ofPairs "v" [(name, "x")]], false⟩)]

/-- The source that imports them. -/
def variantSource : Source :=
  .ofPairs "s" [("config.import", "a")]

/-- A table whose reader marks what it reads for a profile. -/
def markingRepository (table : List (String × Bundle)) : Repository :=
  { Repository.ofTable table with
    readers := [{ Repository.tableReader table with
      read := fun resource => ((Repository.tableReader table).read resource).map fun bundle =>
        { bundle with profileSpecific := resource.profile.isSome } }] }

theorem marksVariants_markingRepository (table : List (String × Bundle)) :
    (markingRepository table).live.MarksVariants := by
  intro reader isReader calls resource bundle read tagged
  rw [List.mem_singleton.mp isReader] at read
  change ((Repository.tableReader table).read resource).map _ = .ok bundle at read
  cases answer : (Repository.tableReader table).read resource with
  | error cause =>
    rw [answer] at read
    cases read
  | ok unmarked =>
    rw [answer] at read
    obtain rfl := Except.ok.inj read
    exact tagged

/-- A variant that is not marked slips through, and one that is marked does not. -/
theorem selecting_of_resolve_variantTable :
    (∃ configuration,
      ((Repository.ofTable (variantTable "profiles.active")).live.resolve [variantSource]
        (.withActive ["prod"]) []).1 = .ok configuration ∧
      ∃ layer ∈ configuration.tree.layers, layer.isActive none = false ∧
        layer.declares "profiles.active" = true ∧ layer.isProfileSpecific = false ∧
        layer.condition? = none) ∧
    ∃ configuration,
      ((markingRepository (variantTable "x")).live.resolve [variantSource]
        (.withActive ["prod"]) []).1 = .ok configuration ∧
      (∃ layer ∈ configuration.tree.layers, layer.isActive none = false) ∧
      ∀ layer ∈ configuration.tree.layers, layer.isActive none = false →
        ∀ name ∈ PropertyName.selecting, layer.declares name = false := by
  constructor
  · have slips : ((Repository.ofTable (variantTable "profiles.active")).live.resolve
        [variantSource] (.withActive ["prod"]) []).1.toOption.map
        (fun configuration => configuration.tree.layers.any fun layer =>
          !layer.isActive none && layer.declares "profiles.active") = some true := by
      decide +kernel
    obtain ⟨configuration, succeeded, isAny⟩ := exists_ok_of_map slips
    obtain ⟨layer, member, both⟩ := List.any_eq_true.mp isAny
    rw [Bool.and_eq_true, Bool.not_eq_true'] at both
    obtain ⟨unmarked, unconditional, _⟩ := (selecting_of_resolve succeeded).1 layer member both.1
      "profiles.active" (by decide) both.2
    exact ⟨configuration, succeeded, layer, member, both.1, both.2, unmarked, unconditional⟩
  · have gated : ((markingRepository (variantTable "x")).live.resolve [variantSource]
        (.withActive ["prod"]) []).1.toOption.map
        (fun configuration => configuration.tree.layers.any fun layer =>
          !layer.isActive none) = some true := by
      decide +kernel
    obtain ⟨configuration, succeeded, isAny⟩ := exists_ok_of_map gated
    obtain ⟨layer, member, inactive⟩ := List.any_eq_true.mp isAny
    rw [Bool.not_eq_true'] at inactive
    exact ⟨configuration, succeeded, ⟨layer, member, inactive⟩,
      (selecting_of_resolve succeeded).2 (marksVariants_markingRepository _)⟩

/-- A layer that depends on profiles, by its resource alone, selects profiles. -/
theorem selecting_by_resource :
    ¬ ∀ (repository : Repository) (initial : List Source) (request : ProfileRequest)
        (configuration : Configuration),
      (Configuration.resolve repository initial request).outcome = .ok configuration →
      ∀ layer ∈ configuration.tree.layers, layer.isActive none = false →
        ∀ name ∈ PropertyName.selecting, layer.declares name = false := by
  intro noneSelects
  have slips : (Configuration.resolve (.ofTable (variantTable "profiles.active"))
      [variantSource] (.withActive ["prod"])).outcome.toOption.map
      (fun configuration => configuration.tree.layers.any fun layer =>
        !layer.isActive none && layer.declares "profiles.active") = some true := by
    decide +kernel
  obtain ⟨configuration, succeeded, isAny⟩ := exists_ok_of_map slips
  obtain ⟨layer, member, both⟩ := List.any_eq_true.mp isAny
  rw [Bool.and_eq_true, Bool.not_eq_true'] at both
  have declares := noneSelects _ _ _ configuration succeeded layer member both.1
    "profiles.active" (by decide)
  exact Bool.false_ne_true (declares.symm.trans both.2)

end LiveRepository

end LayeredConfig
