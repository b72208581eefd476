/-
This file says which profiles a run is given.

The active profiles are those that are asked for, or else those that the configuration names; the
default ones likewise. A list that is not asked for is told by what it holds: no profile at all in
the case of the active ones, `default` and nothing else, however often, in the case of the default
ones. So an empty list of default profiles is asked for, and then no profile is in force if none is
active. Each list that comes out has its profiles in the order in which they first occur.
-/

import LayeredConfig.Profile.Selection
import LayeredConfig.Proofs.Run
import LayeredConfig.Proofs.Text.Trimming

namespace LayeredConfig

/-! ### First occurrences -/

/-- The second list has the items of the first one, each once, in the order in which they first
occur there. -/
structure FirstOccurrences (items kept : List String) : Prop where
  members : ∀ item, item ∈ kept ↔ item ∈ items
  ordered : kept.Pairwise fun earlier later => items.idxOf earlier < items.idxOf later

theorem FirstOccurrences.nodup {items kept : List String} (first : FirstOccurrences items kept) :
    kept.Nodup :=
  first.ordered.imp fun before same => absurd (same ▸ before) (lt_irrefl _)

/-- There is only one such list. -/
theorem FirstOccurrences.unique {items kept other : List String}
    (first : FirstOccurrences items kept) (second : FirstOccurrences items other) :
    kept = other := by
  have samePerm : kept.Perm other := by
    rw [List.perm_ext_iff_of_nodup first.nodup second.nodup]
    exact fun item => (first.members item).trans (second.members item).symm
  refine samePerm.eq_of_pairwise (fun earlier later _ _ before after => ?_) first.ordered
    second.ordered
  exact absurd (before.trans after) (lt_irrefl _)

theorem eraseDups_concat (items : List String) (item : String) :
    (items ++ [item]).eraseDups =
      if item ∈ items then items.eraseDups else items.eraseDups ++ [item] := by
  rw [List.eraseDups_append, List.removeAll]
  by_cases isThere : item ∈ items
  · simp [isThere]
  · simp [isThere, List.eraseDups_cons]

theorem firstOccurrences_eraseDups (items : List String) :
    FirstOccurrences items items.eraseDups := by
  refine ⟨fun item => List.mem_eraseDups, ?_⟩
  induction items using List.reverseRecOn with
  | nil => exact List.Pairwise.nil
  | append_singleton items item inductionHypothesis =>
    have asBefore : items.eraseDups.Pairwise fun earlier later =>
        (items ++ [item]).idxOf earlier < (items ++ [item]).idxOf later := by
      refine inductionHypothesis.imp_of_mem fun {earlier later} inEarlier inLater before => ?_
      rwa [List.idxOf_append_of_mem (List.mem_eraseDups.mp inEarlier),
        List.idxOf_append_of_mem (List.mem_eraseDups.mp inLater)]
    rw [eraseDups_concat]
    split
    · exact asBefore
    · next isNew =>
      refine List.pairwise_append.mpr ⟨asBefore, List.pairwise_singleton _ _, ?_⟩
      intro earlier inItems later isLast
      have isHeld := List.mem_eraseDups.mp inItems
      rw [List.mem_singleton.mp isLast, List.idxOf_append_of_mem isHeld,
        List.idxOf_append_of_notMem isNew]
      have := List.idxOf_lt_length_of_mem isHeld
      omega

theorem eraseDups_of_nodup {items : List String} (nodup : items.Nodup) :
    items.eraseDups = items := by
  induction items using List.reverseRecOn with
  | nil => rfl
  | append_singleton items item inductionHypothesis =>
    obtain ⟨others, -, apart⟩ := List.nodup_append.mp nodup
    have isNew : item ∉ items := fun isThere => apart item isThere item List.mem_cons_self rfl
    rw [eraseDups_concat, if_neg isNew, inductionHypothesis others]

/-! ### Lists that are not asked for -/

namespace ProfileRequest

/-- Whether a list of default profiles leaves them to the configuration: it names `default` and
nothing else. -/
def LeavesFallback (fallback : List String) : Prop :=
  ∀ name, name ∈ fallback ↔ name = standardProfile

theorem leavesFallback_iff {fallback : List String} :
    LeavesFallback fallback ↔
      ¬(fallback.isEmpty || fallback.any (· ≠ standardProfile)) = true := by
  rw [Bool.not_eq_true, Bool.or_eq_false_iff, List.isEmpty_eq_false_iff, List.any_eq_false]
  constructor
  · intro leaves
    have isThere : standardProfile ∈ fallback := (leaves standardProfile).mpr rfl
    refine ⟨List.ne_nil_of_mem isThere, fun name member => ?_⟩
    simp [(leaves name).mp member]
  · rintro ⟨someName, only⟩ name
    have isStandard (name : String) (member : name ∈ fallback) : name = standardProfile := by
      simpa using only name member
    obtain ⟨first, isFirst⟩ := List.exists_mem_of_ne_nil fallback someName
    exact ⟨isStandard name, fun same => same ▸ isStandard first isFirst ▸ isFirst⟩

instance : DecidablePred LeavesFallback :=
  fun _ => decidable_of_iff' _ leavesFallback_iff

end ProfileRequest

/-- The profiles that a list of the configuration names: its entries without the blanks around
them, where blank ones name none. -/
def profilesAmong (items : List String) : List String :=
  (items.filter fun item => !Text.isBlankText item).map Text.trimmed

theorem profilesAmong_eq (items : List String) :
    profilesAmong items = (items.map Text.trimmed).filter (· ≠ "") := by
  rw [profilesAmong, List.filter_map]
  congr 2
  funext item
  by_cases isBlank : Text.isBlankText item = true
  · simp [isBlank, Text.trimmed_eq_empty.mpr isBlank]
  · simp [isBlank, mt Text.trimmed_eq_empty.mp isBlank]

/-! ### The profiles of a run -/

namespace Lookup

theorem getProfiles_eq (lookup : Lookup) (name : String) :
    lookup.getProfiles name = (lookup.getList name).map (·.map profilesAmong) := by
  rw [getProfiles, funext profilesAmong_eq]
  cases lookup.getList name <;> rfl

/-- The two lists of profiles that are requested or else declared, one after the other. -/
theorem selectProfiles_eq (lookup : Lookup) (active fallback additional : List String) :
    lookup.selectProfiles active fallback additional =
      (if active.isEmpty then (lookup.getProfiles PropertyName.activeProfiles).map (·.getD [])
        else .ok active) >>= fun chosen =>
      (if fallback.isEmpty || fallback.any (· ≠ ProfileRequest.standardProfile) then .ok fallback
        else (lookup.getProfiles PropertyName.defaultProfiles).map
          (·.getD [ProfileRequest.standardProfile])) >>= fun otherwise =>
      .ok (Profiles.ofLists (chosen ++ additional) otherwise) := by
  unfold selectProfiles
  split <;> split <;> rfl

/-- A list of profiles that is asked for, or else what the configuration names for a property, or
else what is usual. -/
inductive Settles (lookup : Lookup) (property : String) (isAskedFor : Prop)
    (asked usual : List String) : List String → Prop
  | asked (isAsked : isAskedFor) : Settles lookup property isAskedFor asked usual asked
  | named {items : List String} (isLeft : ¬isAskedFor)
    (named : lookup.getList property = .ok (some items)) :
    Settles lookup property isAskedFor asked usual (profilesAmong items)
  | unnamed (isLeft : ¬isAskedFor) (unnamed : lookup.getList property = .ok none) :
    Settles lookup property isAskedFor asked usual usual

/-- The profiles that follow from the requested lists and from the configuration, as lists of which
only the first occurrences count. -/
structure Computes (lookup : Lookup) (active fallback additional : List String)
    (profiles : Profiles) : Prop where
  active : ∃ chosen,
    lookup.Settles PropertyName.activeProfiles (active ≠ []) active [] chosen ∧
      FirstOccurrences (chosen ++ additional) profiles.active
  fallback : ∃ otherwise,
    lookup.Settles PropertyName.defaultProfiles (¬ProfileRequest.LeavesFallback fallback) fallback
        [ProfileRequest.standardProfile] otherwise ∧
      FirstOccurrences otherwise profiles.fallback
  accepted : profiles.accepted =
    if profiles.active = [] then profiles.fallback else profiles.active
  /-- The two lists make the same profiles again. -/
  rebuilt : Profiles.ofLists profiles.active profiles.fallback = profiles

section Settles

variable {lookup : Lookup} {property : String} {isAskedFor : Prop}
  {asked usual chosen : List String}

/-- What a list comes to that is asked for, or else named. -/
theorem settles_iff [Decidable isAskedFor] :
    (if isAskedFor then .ok asked else (lookup.getProfiles property).map (·.getD usual)) =
        .ok chosen ↔
      lookup.Settles property isAskedFor asked usual chosen := by
  split
  · next isAsked =>
    constructor
    · rintro ⟨⟩
      exact .asked isAsked
    · rintro (_ | isLeft | isLeft)
      · rfl
      · exact absurd isAsked isLeft
      · exact absurd isAsked isLeft
  · next isLeft =>
    rw [getProfiles_eq, map_eq_ok]
    constructor
    · rintro ⟨bound, isBound, rfl⟩
      obtain ⟨listed, isListed, rfl⟩ := map_eq_ok.mp isBound
      cases listed with
      | some items => exact .named isLeft isListed
      | none => exact .unnamed isLeft isListed
    · rintro (isAsked | @⟨items, -, isNamed⟩ | ⟨-, isUnnamed⟩)
      · exact absurd isAsked isLeft
      · exact ⟨some (profilesAmong items), map_eq_ok.mpr ⟨_, isNamed, rfl⟩, rfl⟩
      · exact ⟨none, map_eq_ok.mpr ⟨_, isUnnamed, rfl⟩, rfl⟩

theorem exists_settles_iff [Decidable isAskedFor] :
    (∃ chosen, lookup.Settles property isAskedFor asked usual chosen) ↔
      (¬isAskedFor → ∃ bound, lookup.getList property = .ok bound) := by
  constructor
  · rintro ⟨chosen, isAsked | @⟨items, -, isNamed⟩ | ⟨-, isUnnamed⟩⟩ isLeft
    · exact absurd isAsked isLeft
    · exact ⟨some items, isNamed⟩
    · exact ⟨none, isUnnamed⟩
  · intro isBound
    by_cases isAsked : isAskedFor
    · exact ⟨asked, .asked isAsked⟩
    · obtain ⟨_ | items, isListed⟩ := isBound isAsked
      · exact ⟨usual, .unnamed isAsked isListed⟩
      · exact ⟨profilesAmong items, .named isAsked isListed⟩

end Settles

variable {lookup : Lookup} {active fallback additional : List String} {profiles : Profiles}

/-- The profiles of a run are those of a list of active ones and a list of default ones. -/
theorem selectProfiles_iff :
    lookup.selectProfiles active fallback additional = .ok profiles ↔
      ∃ chosen, lookup.Settles PropertyName.activeProfiles (active ≠ []) active [] chosen ∧
        ∃ otherwise,
          lookup.Settles PropertyName.defaultProfiles (¬ProfileRequest.LeavesFallback fallback)
            fallback [ProfileRequest.standardProfile] otherwise ∧
          Profiles.ofLists (chosen ++ additional) otherwise = profiles := by
  have activeOr (bound : Except Error (List String)) :
      (if active.isEmpty then bound else .ok active) =
        if active ≠ [] then .ok active else bound := by
    rw [ite_not]
    exact if_congr List.isEmpty_iff rfl rfl
  have fallbackOr (bound : Except Error (List String)) :
      (if fallback.isEmpty || fallback.any (· ≠ ProfileRequest.standardProfile) then .ok fallback
        else bound) =
      if ¬ProfileRequest.LeavesFallback fallback then .ok fallback else bound :=
    if_congr (not_iff_comm.mp ProfileRequest.leavesFallback_iff.symm).symm rfl rfl
  simp only [selectProfiles_eq, activeOr, fallbackOr, bind_eq_ok, settles_iff, Except.ok.injEq]

/-- Of the profiles that are put together only the first occurrences are left. -/
theorem ofLists_eq_iff {chosen otherwise : List String} :
    Profiles.ofLists chosen otherwise = profiles ↔
      FirstOccurrences chosen profiles.active ∧ FirstOccurrences otherwise profiles.fallback := by
  constructor
  · rintro rfl
    exact ⟨firstOccurrences_eraseDups chosen, firstOccurrences_eraseDups otherwise⟩
  · rintro ⟨firstChosen, firstOtherwise⟩
    rw [Profiles.ofLists, (firstOccurrences_eraseDups chosen).unique firstChosen,
      (firstOccurrences_eraseDups otherwise).unique firstOtherwise]

theorem selectProfiles_iff_computes :
    lookup.selectProfiles active fallback additional = .ok profiles ↔
      lookup.Computes active fallback additional profiles := by
  rw [selectProfiles_iff]
  constructor
  · rintro ⟨chosen, isChosen, otherwise, isOtherwise, made⟩
    obtain ⟨firstChosen, firstOtherwise⟩ := ofLists_eq_iff.mp made
    refine ⟨⟨chosen, isChosen, firstChosen⟩, ⟨otherwise, isOtherwise, firstOtherwise⟩, ?_, ?_⟩
    · exact if_congr List.isEmpty_iff rfl rfl
    · rw [Profiles.ofLists, eraseDups_of_nodup firstChosen.nodup,
        eraseDups_of_nodup firstOtherwise.nodup]
  · rintro ⟨⟨chosen, isChosen, firstChosen⟩, ⟨otherwise, isOtherwise, firstOtherwise⟩, -, -⟩
    exact ⟨chosen, isChosen, otherwise, isOtherwise,
      ofLists_eq_iff.mpr ⟨firstChosen, firstOtherwise⟩⟩

/-- The profiles of a run can be computed if the lists can be read that are not asked for, and they
are those that follow from the requested lists and from the configuration. -/
theorem asked_or_named (lookup : Lookup) (active fallback additional : List String) :
    ((∃ profiles, lookup.selectProfiles active fallback additional = .ok profiles) ↔
      (active = [] → ∃ bound, lookup.getList PropertyName.activeProfiles = .ok bound) ∧
      (ProfileRequest.LeavesFallback fallback →
        ∃ bound, lookup.getList PropertyName.defaultProfiles = .ok bound)) ∧
    ∀ profiles, lookup.selectProfiles active fallback additional = .ok profiles ↔
      lookup.Computes active fallback additional profiles := by
  refine ⟨?_, fun _ => selectProfiles_iff_computes⟩
  have bothSettled :
      (∃ profiles, lookup.selectProfiles active fallback additional = .ok profiles) ↔
        (∃ chosen,
          lookup.Settles PropertyName.activeProfiles (active ≠ []) active [] chosen) ∧
        ∃ otherwise,
          lookup.Settles PropertyName.defaultProfiles (¬ProfileRequest.LeavesFallback fallback)
            fallback [ProfileRequest.standardProfile] otherwise := by
    simp only [selectProfiles_iff]
    constructor
    · rintro ⟨_, chosen, isChosen, otherwise, isOtherwise, _⟩
      exact ⟨⟨chosen, isChosen⟩, otherwise, isOtherwise⟩
    · rintro ⟨⟨chosen, isChosen⟩, otherwise, isOtherwise⟩
      exact ⟨_, chosen, isChosen, otherwise, isOtherwise, rfl⟩
  rw [bothSettled, exists_settles_iff, exists_settles_iff, not_not, not_not]

/-- A tree of one source, which names a default profile. -/
def namingTree : LayerTree :=
  .ofSources [.ofPairs "s" [("profiles.default", "local")]]

/-- An empty list of default profiles is asked for, so no profile is in force although the
configuration names one. -/
theorem empty_fallback_not_named :
    ¬∀ (lookup : Lookup) (active fallback additional : List String) (profiles : Profiles),
      lookup.selectProfiles active fallback additional = .ok profiles → fallback = [] →
      ∃ bound, lookup.getList PropertyName.defaultProfiles = .ok bound ∧
        FirstOccurrences ((bound.map profilesAmong).getD [ProfileRequest.standardProfile])
          profiles.fallback := by
  intro isNamed
  have selected : (overTree namingTree none .active).selectProfiles [] [] [] = .ok ⟨[], []⟩ :=
    ok_of_toOption (by decide +kernel)
  have listed : (overTree namingTree none .active).getList PropertyName.defaultProfiles =
      .ok (some ["local"]) :=
    ok_of_toOption (by decide +kernel)
  obtain ⟨bound, isBound, first⟩ := isNamed _ [] [] [] _ selected rfl
  rw [listed] at isBound
  cases isBound
  have isThere : "local" ∈ profilesAmong ["local"] := by decide +kernel
  cases (first.members "local").mpr isThere

end Lookup

end LayeredConfig
