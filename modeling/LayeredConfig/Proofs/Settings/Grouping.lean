/-
This file shows that layers of settings may be laid over each other in any grouping.

To lay settings over others is associative, and settings that give nothing change nothing on either
side; so what several layers come to does not depend on which of them are put together first. Most
settings overwrite each other, and only the additional profiles need an argument: one more list adds
what is not there yet, so a profile that an earlier list brought in may be left out of a later one.
A layer without profile settings keeps those of another one as they are, with their repetitions,
while additional profiles that are laid over other profile settings lose them. This breaks nothing,
since the repetitions are gone in either grouping as soon as there is anything below them.
-/

import LayeredConfig.Settings.Layering

namespace LayeredConfig

/-! ### Additional profiles -/

namespace ProfileSettings

theorem mem_extended {profiles more : List String} {profile : String} :
    profile ∈ extended profiles more ↔ profile ∈ profiles ∨ profile ∈ more := by
  induction more generalizing profiles with
  | nil => simp [extended]
  | cons first rest inductionHypothesis =>
    rw [extended]
    split
    · next isThere =>
      have known (same : profile = first) : profile ∈ profiles :=
        same ▸ List.contains_iff_mem.mp isThere
      rw [inductionHypothesis, List.mem_cons, ← or_assoc, or_iff_left_of_imp known]
    · rw [inductionHypothesis, List.mem_append, List.mem_singleton, List.mem_cons, or_assoc]

/-- To bring in two lists is to bring in one after the other. -/
theorem extended_append (profiles first second : List String) :
    extended profiles (first ++ second) = extended (extended profiles first) second := by
  induction first generalizing profiles with
  | nil => rfl
  | cons profile rest inductionHypothesis =>
    rw [List.cons_append, extended, extended]
    split <;> exact inductionHypothesis _

/-- A list that leaves out what another one holds adds as much behind that one as the whole list. -/
theorem extended_extended (profiles first second : List String) :
    extended profiles (extended first second) = extended (extended profiles first) second := by
  induction second generalizing first with
  | nil => rfl
  | cons profile rest inductionHypothesis =>
    by_cases isThere : first.contains profile = true
    · have stillThere : (extended profiles first).contains profile = true :=
        List.contains_iff_mem.mpr (mem_extended.mpr (Or.inr (List.contains_iff_mem.mp isThere)))
      rw [extended, if_pos isThere, inductionHypothesis, extended, if_pos stillThere]
    · have asBefore : extended (extended profiles (first ++ [profile])) rest =
          extended (extended profiles first) (profile :: rest) := by
        rw [← extended_append, ← extended_append, List.append_assoc, List.singleton_append]
      rw [extended, if_neg isThere, inductionHypothesis, asBefore]

theorem overlay_assoc (first second third : ProfileSettings) :
    (first.overlay second).overlay third = first.overlay (second.overlay third) := by
  obtain ⟨_, _, profiles⟩ := first
  obtain ⟨_, _, below⟩ := second
  obtain ⟨_, _, above⟩ := third
  simp only [overlay, Option.or_assoc, mk.injEq, true_and]
  cases below <;> cases above <;> simp [extended, extended_extended]

instance : Std.Associative overlay := ⟨overlay_assoc⟩

end ProfileSettings

/-! ### Settings -/

namespace Settings

/-- Profile settings are laid over each other if both layers have some. -/
theorem profiles_overlay (lower upper : Settings) :
    (lower.overlay upper).profiles =
      Option.merge ProfileSettings.overlay lower.profiles upper.profiles := by
  obtain ⟨_, below, _⟩ := lower
  obtain ⟨_, above, _⟩ := upper
  cases below <;> cases above <;> rfl

theorem overlay_eq (lower upper : Settings) :
    lower.overlay upper =
      { onMissing := upper.onMissing.or lower.onMissing
        profiles := Option.merge ProfileSettings.overlay lower.profiles upper.profiles
        baseDirectory := upper.baseDirectory.or lower.baseDirectory
        roots := upper.roots.or lower.roots
        imports := upper.imports.or lower.imports } := by
  rw [← profiles_overlay]
  rfl

theorem overlay_assoc (first second third : Settings) :
    (first.overlay second).overlay third = first.overlay (second.overlay third) := by
  simp only [overlay_eq, Std.Associative.assoc]

theorem empty_overlay (settings : Settings) : empty.overlay settings = settings := by
  simp [overlay_eq, empty]

theorem overlay_empty (settings : Settings) : settings.overlay empty = settings := by
  simp [overlay_eq, empty]

instance : Std.Associative overlay := ⟨overlay_assoc⟩

/-! ### Groups of layers -/

/-- Layers in groups, where the members of a group are layers or groups again, the lowest first. -/
inductive Grouping where
  | layer (settings : Settings)
  | group (members : List Grouping)

namespace Grouping

mutual

/-- The layers in all groups, the lowest first. -/
def layers : Grouping → List Settings
  | layer settings => [settings]
  | group members => layersAll members

def layersAll : List Grouping → List Settings
  | [] => []
  | member :: rest => member.layers ++ layersAll rest

end

mutual

/-- What the layers come to if the members of each group are put together before the group is laid
over anything else. -/
def overlaid : Grouping → Settings
  | layer settings => settings
  | group members => overlayAll (overlaidAll members)

def overlaidAll : List Grouping → List Settings
  | [] => []
  | member :: rest => member.overlaid :: overlaidAll rest

end

end Grouping

theorem overlayAll_cons (lowest : Settings) (layers : List Settings) :
    overlayAll (lowest :: layers) = lowest.overlay (overlayAll layers) := by
  have fromEmpty : layers.foldl overlay (lowest.overlay empty) =
      lowest.overlay (overlayAll layers) := List.foldl_assoc
  rw [overlay_empty] at fromEmpty
  rw [overlayAll, List.foldl_cons, empty_overlay, fromEmpty]

theorem overlayAll_append (lower upper : List Settings) :
    overlayAll (lower ++ upper) = (overlayAll lower).overlay (overlayAll upper) := by
  induction lower with
  | nil => exact (empty_overlay _).symm
  | cons lowest rest inductionHypothesis =>
    rw [List.cons_append, overlayAll_cons, inductionHypothesis, overlayAll_cons, overlay_assoc]

namespace Grouping

mutual

theorem overlaid_eq : (grouping : Grouping) → grouping.overlaid = overlayAll grouping.layers
  | layer settings => (empty_overlay settings).symm
  | group members => overlayAll_overlaidAll members

theorem overlayAll_overlaidAll : (members : List Grouping) →
    overlayAll (overlaidAll members) = overlayAll (layersAll members)
  | [] => rfl
  | member :: rest => by
    rw [overlaidAll, overlayAll_cons, overlaid_eq member, overlayAll_overlaidAll rest, layersAll,
      overlayAll_append]

end

end Grouping

/-- To lay settings over others is associative, and settings that give nothing change nothing, below
others or above them. So layers come to the same in any groups. -/
theorem same_in_any_groups :
    (∀ first second third : Settings,
      (first.overlay second).overlay third = first.overlay (second.overlay third)) ∧
    (∀ settings : Settings,
      empty.overlay settings = settings ∧ settings.overlay empty = settings) ∧
    ∀ grouping : Grouping, grouping.overlaid = overlayAll grouping.layers :=
  ⟨overlay_assoc, fun settings => ⟨empty_overlay settings, overlay_empty settings⟩,
    Grouping.overlaid_eq⟩

/-- Repetitions stay where there is nothing below them, and are lost over other profile settings. -/
example :
    let twice : ProfileSettings := ⟨none, none, some ["a", "a"]⟩
    let below : Settings := { empty with profiles := some ProfileSettings.empty }
    let above : Settings := { empty with profiles := some twice }
    (empty.overlay above).profiles = some twice ∧
      (below.overlay above).profiles = some ⟨none, none, some ["a"]⟩ := by
  decide

end Settings

end LayeredConfig
