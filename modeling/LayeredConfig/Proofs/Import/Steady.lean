/-
This file compares two imports of the same locations, before and after profiles are known.

Finders are steady if what they find for all profiles does not depend on what is known about
profiles, and if they name the profile of every variant. From steady finders the later import gets
what the earlier one got, with variants in between. So what it loads for all profiles, the earlier
one loaded just the same or passed over as loaded before.
-/

import LayeredConfig.Import.FileReader
import LayeredConfig.Proofs.Import.Searching
import LayeredConfig.Proofs.Import.Table
import Mathlib.Data.List.Find

namespace LayeredConfig

namespace Repository

/-! ### Steady finders -/

/-- Only for variants do the finders heed what is known about profiles, and they tag these. -/
structure Steady (repository : Repository) : Prop where
  takes : ∀ finder ∈ repository.finders, ∀ parent known location,
    finder.takes ⟨parent, known⟩ location = finder.takes ⟨parent, none⟩ location
  find : ∀ finder ∈ repository.finders, ∀ parent known location,
    finder.find ⟨parent, known⟩ location = finder.find ⟨parent, none⟩ location
  variants : ∀ finder ∈ repository.finders, ∀ context location profiles found,
    finder.findVariants context location profiles = .ok found →
    ∀ resource ∈ found, resource.profile.isSome = true

theorem steady_ofTable (table : List (String × Bundle)) : (ofTable table).Steady := by
  refine ⟨fun finder isFinder => ?_, fun finder isFinder => ?_, fun finder isFinder => ?_⟩
  · rw [List.mem_singleton.mp isFinder]
    exact fun _ _ _ => rfl
  · rw [List.mem_singleton.mp isFinder]
    exact fun _ _ _ => rfl
  · rw [List.mem_singleton.mp isFinder]
    intro context location profiles found succeeded resource member
    obtain rfl := Except.ok.inj succeeded
    obtain ⟨profile, _, isVariant⟩ := List.mem_flatMap.mp member
    unfold inTable at isVariant
    split at isVariant
    · rw [List.mem_singleton.mp isVariant]
      rfl
    · cases isVariant

/-- Files are found steadily. -/
theorem steady_ofFiles (world : World) (baseDirectory : String) (roots : List String)
    (policy : MissingPolicy) : (ofFiles world baseDirectory roots policy).Steady := by
  refine ⟨fun other isFinder => ?_, fun other isFinder => ?_, fun other isFinder => ?_⟩
  · rw [List.mem_singleton.mp isFinder]
    exact fun _ _ _ => rfl
  · rw [List.mem_singleton.mp isFinder]
    exact fun _ _ _ => rfl
  · rw [List.mem_singleton.mp isFinder]
    intro context location profiles found succeeded resource member
    obtain ⟨paths, _, succeeded⟩ := bind_eq_ok.mp succeeded
    obtain rfl := Except.ok.inj succeeded
    obtain ⟨profile, _, isVariant⟩ := List.mem_flatMap.mp member
    obtain ⟨_, _, rfl⟩ := List.mem_map.mp isVariant
    rfl

section Steady

variable {repository : Repository} {parent : Option Resource} {known : Option Profiles}
  {locations : List Location}

/-- What is answered for all profiles does not depend on what is known about profiles. -/
theorem Steady.answer_base (steady : repository.Steady) (parent : Option Resource)
    (known : Option Profiles) (location : Location) :
    repository.answer ⟨parent, known⟩ location .base =
      repository.answer ⟨parent, none⟩ location .base := by
  have taking : (repository.finders.find? fun finder => finder.takes ⟨parent, known⟩ location) =
      repository.finders.find? fun finder => finder.takes ⟨parent, none⟩ location :=
    List.find?_congr fun finder isFinder => steady.takes finder isFinder parent known location
  unfold answer
  rw [taking]
  cases isFinder : repository.finders.find? fun finder =>
      finder.takes ⟨parent, none⟩ location with
  | none => rfl
  | some finder =>
    dsimp only
    rw [steady.find finder (List.mem_of_find?_eq_some isFinder) parent known location]

/-- What has no profile is not found as a variant. -/
theorem Steady.search_eq_base (steady : repository.Steady) {context : FindContext} {find : Find}
    (isFind : find ∈ repository.finds context locations)
    (untagged : find.resource.profile = none) : find.search = .base := by
  cases isSearch : find.search with
  | base => rfl
  | variants =>
    have inAnswer := (mem_finds.mp isFind).2
    rw [isSearch, answer] at inAnswer
    split at inAnswer
    · cases inAnswer
    · next finder isFinder =>
      cases isKnown : context.known with
      | none =>
        rw [isKnown] at inAnswer
        cases inAnswer
      | some profiles =>
        rw [isKnown] at inAnswer
        dsimp only at inAnswer
        cases answered : finder.findVariants context find.location profiles with
        | error cause =>
          rw [answered] at inAnswer
          cases inAnswer
        | ok found =>
          rw [answered] at inAnswer
          have tagged := steady.variants finder (List.mem_of_find?_eq_some isFinder) _ _ _ _
            answered find.resource inAnswer
          rw [untagged] at tagged
          cases tagged

/-- While profiles are unknown, the finds are those for all profiles that there are with them. -/
theorem Steady.finds_unknown (steady : repository.Steady) (parent : Option Resource)
    (known : Option Profiles) (locations : List Location) :
    repository.finds ⟨parent, none⟩ locations =
      (repository.finds ⟨parent, known⟩ locations).filter (·.search = .base) := by
  rw [finds, finds, List.filter_flatMap]
  congr 1
  funext location
  have noVariants : repository.searched ⟨parent, none⟩ location .variants = [] := by
    rw [searched, answer]
    cases repository.finders.find? fun finder => finder.takes ⟨parent, none⟩ location <;> rfl
  have base : (repository.searched ⟨parent, known⟩ location .base).filter (·.search = .base) =
      repository.searched ⟨parent, none⟩ location .base := by
    rw [List.filter_eq_self.mpr, searched, searched, steady.answer_base]
    intro find isFind
    exact decide_eq_true (mem_searched.mp isFind).2.1
  have variants : (repository.searched ⟨parent, known⟩ location .variants).filter
      (·.search = .base) = [] := by
    refine List.filter_eq_nil_iff.mpr fun find isFind => ?_
    rw [(mem_searched.mp isFind).2.1]
    decide
  rw [List.filter_append, base, variants, noVariants]

end Steady

/-! ### What an import must load -/

/-- An import that succeeds has loaded every resource that comes first, is not loaded before and
can be read. -/
theorem load_of_first {repository : Repository} {seen : List String} {resources : List Resource}
    {gathered : List (Resource × Bundle)} {resource : Resource} {bundle : Bundle}
    (succeeded : (repository.readAll seen resources).outcome = .ok gathered)
    (first : resources.find? (fun other => other.id == resource.id) = some resource)
    (unseen : resource.id ∉ seen)
    (read : (repository.readOne resource).outcome = .ok (some bundle)) :
    (resource, bundle) ∈ gathered := by
  induction resources generalizing seen gathered with
  | nil => cases first
  | cons other rest inductionHypothesis =>
    cases same : other.id == resource.id with
    | true =>
      rw [List.find?_cons, same] at first
      obtain rfl := Option.some.inj first
      rw [readAll, if_neg (mt List.contains_iff_mem.mp unseen)] at succeeded
      obtain ⟨bundle?, isRead, succeeded⟩ := Run.outcome_bind_eq_ok.mp succeeded
      obtain ⟨others, _, succeeded⟩ := Run.outcome_bind_eq_ok.mp succeeded
      cases succeeded
      obtain rfl := Except.ok.inj (isRead.symm.trans read)
      exact List.mem_append_left _ (List.mem_singleton_self _)
    | false =>
      rw [List.find?_cons, same] at first
      rw [readAll] at succeeded
      split at succeeded
      · obtain ⟨_, _, succeeded⟩ := Run.outcome_bind_eq_ok.mp succeeded
        exact inductionHypothesis succeeded first unseen
      · obtain ⟨bundle?, isRead, succeeded⟩ := Run.outcome_bind_eq_ok.mp succeeded
        obtain ⟨others, areOthers, succeeded⟩ := Run.outcome_bind_eq_ok.mp succeeded
        cases succeeded
        refine List.mem_append_right _ (inductionHypothesis areOthers first ?_)
        rw [List.mem_cons, not_or]
        exact ⟨Ne.symm (beq_eq_false_iff_ne.mp same), unseen⟩

/-- What comes first in a list, comes first among what is kept with it. -/
theorem find?_filter_of_first {Element : Type} {elements : List Element} {element : Element}
    {wanted : Element → Bool} (first : elements.find? wanted = some element)
    (keep : Element → Bool) (kept : keep element = true) :
    (elements.filter keep).find? wanted = some element := by
  obtain ⟨isWanted, front, back, split, others⟩ := List.find?_eq_some_iff_append.mp first
  rw [List.find?_filter, List.find?_eq_some_iff_append]
  refine ⟨decide_eq_true ⟨kept, isWanted⟩, front, back, split, fun other member => ?_⟩
  have unwanted := others other member
  rw [Bool.not_eq_true'] at unwanted ⊢
  exact decide_eq_false fun both => Bool.false_ne_true (unwanted.symm.trans both.2)

/-- What steady finders bring to a later import for all profiles, an earlier import of the same
locations loaded, too, or had loaded before. -/
theorem Steady.loaded_early {repository : Repository} (steady : repository.Steady)
    {parent : Option Resource} {known : Option Profiles} {locations : List Location}
    {earlier later : List String} {gathered : List (Resource × Bundle)}
    (succeeded : (repository.gather ⟨parent, none⟩ locations earlier).outcome = .ok gathered)
    {load : Resource × Bundle}
    (isLoad : load ∈ (repository.gather ⟨parent, known⟩ locations later).recorded.loads)
    (untagged : load.1.profile = none) : load.1.id ∈ earlier ∨ load ∈ gathered := by
  rw [or_iff_not_imp_left]
  intro unseen
  obtain ⟨find, first, same⟩ := first_of_gather locations later load isLoad
  have isBase := steady.search_eq_base (List.mem_of_find?_eq_some first) (same ▸ untagged)
  have firstEarly := find?_filter_of_first first (·.search = .base) (decide_eq_true isBase)
  rw [← steady.finds_unknown] at firstEarly
  obtain ⟨resources, found, succeeded⟩ := Run.outcome_bind_eq_ok.mp succeeded
  refine load_of_first succeeded ?_ unseen (outcome_of_gather locations later load isLoad)
  rw [findAll_eq found, List.find?_map]
  exact Option.map_eq_some_iff.mpr ⟨find, firstEarly, same⟩

end Repository

end LayeredConfig
