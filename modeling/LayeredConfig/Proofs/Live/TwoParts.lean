/-
This file proves that a resolution calls its finders and readers in two parts.

In the first part nothing is known about profiles, and no finder is asked for variants. In the
second part one set of profiles is known, to the end of the resolution. What is known changes only
where the profiles are learned, which happens once. In either part the imports of a layer are read
at most once: a phase that came to a layer does not come to it again. All this holds whatever the
finders and readers answer, and a resolution that fails is no exception, wherever it fails.
-/

import LayeredConfig.Proofs.Live.Expansion

namespace LayeredConfig

open LayerTree

namespace Expansion

/-! ### Parts -/

/-- The expansions know the same about profiles and tell it to all finders that they call, and no
two of them are of the same layer. -/
structure Part (known : Option Profiles) (expansions : List Expansion) : Prop where
  same : ∀ expansion ∈ expansions, expansion.known = known
  sees : ∀ expansion ∈ expansions, ∀ call ∈ expansion.calls, call.Sees known
  once : (expansions.map (·.layer.stamp)).Nodup

theorem part_nil (known : Option Profiles) : Part known [] :=
  ⟨nofun, nofun, List.nodup_nil⟩

theorem part_ofWork {known : Option Profiles} {layer : Layer} {made : List Call}
    (sees : ∀ expansion ∈ ofWork known layer made, ∀ call ∈ expansion.calls, call.Sees known) :
    Part known (ofWork known layer made) := by
  refine ⟨fun expansion member => ?_, sees, ?_⟩
  · rw [(mem_ofWork.mp member).2]
  · cases isFound : layer.role.isFound with
    | true =>
      rw [ofWork_of_found isFound]
      exact List.nodup_nil
    | false =>
      rw [ofWork_of_ready isFound]
      exact List.nodup_singleton _

theorem Part.append {known : Option Profiles} {first second : List Expansion}
    (isFirst : Part known first) (isSecond : Part known second)
    (others : ∀ new ∈ second, ∀ old ∈ first, old.layer.stamp ≠ new.layer.stamp) :
    Part known (first ++ second) := by
  refine ⟨fun expansion member => ?_, fun expansion member => ?_, ?_⟩
  · exact (List.mem_append.mp member).elim (isFirst.same expansion) (isSecond.same expansion)
  · exact (List.mem_append.mp member).elim (isFirst.sees expansion) (isSecond.sees expansion)
  · rw [List.map_append, List.nodup_append]
    refine ⟨isFirst.once, isSecond.once, fun stamp isOld other isNew same => ?_⟩
    obtain ⟨old, inFirst, rfl⟩ := List.mem_map.mp isOld
    obtain ⟨new, inSecond, rfl⟩ := List.mem_map.mp isNew
    exact others new inSecond old inFirst same

/-- While profiles are unknown there is one part; once they are known there are two. -/
def Parted : Option Profiles → List Expansion → Prop
  | none, expansions => Part none expansions
  | some profiles, expansions =>
    ∃ early late, expansions = early ++ late ∧ Part none early ∧ Part (some profiles) late

/-- To learn the profiles ends the first part. -/
theorem Parted.learn {expansions : List Expansion} (parted : Parted none expansions)
    (profiles : Profiles) : Parted (some profiles) expansions :=
  ⟨expansions, [], (List.append_nil expansions).symm, parted, part_nil _⟩

/-- What is expanded next goes to the part of what is known. -/
theorem Parted.append {known : Option Profiles} {expansions others : List Expansion}
    (parted : Parted known expansions) (part : Part known others)
    (fresh : ∀ new ∈ others, ∀ old ∈ expansions, old.known = known →
      old.layer.stamp ≠ new.layer.stamp) : Parted known (expansions ++ others) := by
  cases known with
  | none =>
    have isPart : Part none expansions := parted
    exact isPart.append part fun new isNew old isOld =>
      fresh new isNew old isOld (isPart.same old isOld)
  | some profiles =>
    obtain ⟨early, late, rfl, isEarly, isLate⟩ := parted
    refine ⟨early, late ++ others, List.append_assoc _ _ _, isEarly, ?_⟩
    exact isLate.append part fun new isNew old isOld =>
      fresh new isNew old (List.mem_append_right _ isOld) (isLate.same old isOld)

end Expansion

namespace LiveRepository

open Expansion

variable {live : LiveRepository} {initial : List Source} {request : ProfileRequest}
  {known : Option Profiles} {tree : LayerTree} {layer : Layer} {expansions : List Expansion}
  {made : List Call}

/-! ### Along a resolution -/

/-- The work on a layer goes on with the part of what is known, whether or not it succeeds. -/
theorem Comes.parted_work (comes : live.Comes initial request known tree expansions)
    (parted : Parted known expansions) (selected : tree.next? known = some layer)
    (worked : (live.work known tree layer (callsOf expansions)).2 =
      callsOf (expansions ++ ofWork known layer made)) :
    Parted known (expansions ++ ofWork known layer made) := by
  refine parted.append (part_ofWork (sees_of_work worked)) ?_
  intro new isNew old isOld sameKnown sameStamp
  obtain ⟨ready, rfl⟩ := mem_ofWork.mp isNew
  refine not_attached_of_next comes.sound selected ready ?_
  rw [← sameStamp, ← sameKnown]
  exact comes.attached old isOld

theorem Comes.parted (comes : live.Comes initial request known tree expansions) :
    Parted known expansions := by
  induction comes with
  | start => exact part_nil none
  | step comes selected worked inductionHypothesis =>
    exact comes.parted_work inductionHypothesis selected (congrArg Prod.snd worked)
  | learn _ _ _ inductionHypothesis => exact inductionHypothesis.learn _

/-- Whatever is known when a resolution fails, its expansions are parted by some profiles. -/
theorem Breaks.parted {cause : Error} (breaks : live.Breaks initial request cause expansions) :
    ∃ profiles, Parted (some profiles) expansions := by
  have parted : ∃ known, Parted known expansions := by
    cases breaks with
    | start => exact ⟨none, part_nil none⟩
    | step comes selected failed =>
      exact ⟨_, comes.parted_work comes.parted selected (congrArg Prod.snd failed)⟩
    | limit comes _ => exact ⟨_, comes.parted⟩
    | learn comes _ => exact ⟨_, comes.parted⟩
    | check comes _ => exact ⟨_, comes.parted⟩
  obtain ⟨known, parted⟩ := parted
  cases known with
  | none => exact ⟨default, parted.learn _⟩
  | some profiles => exact ⟨profiles, parted⟩

/-! ### Both parts -/

/-- The calls of a resolution, whether it succeeds or fails, are those of two lists of expansions,
one list after the other. In the first one every finder is told that profiles are unknown, and none
is asked for variants. In the second one every finder is told the same profiles, which are those of
the configuration if the resolution succeeds. In neither one are the imports of a layer read
twice. -/
theorem calls_in_two_parts (live : LiveRepository) (initial : List Source)
    (request : ProfileRequest) :
    ∃ (early late : List Expansion) (profiles : Profiles),
      (live.resolve initial request []).2 = callsOf early ++ callsOf late ∧
      Part none early ∧ Part (some profiles) late ∧
      match (live.resolve initial request []).1 with
      | .ok configuration => configuration.profiles = profiles ∧
        live.Comes initial request configuration.known configuration.tree (early ++ late)
      | .error cause => live.Breaks initial request cause (early ++ late) := by
  have leaves := leaves_resolve live initial request
  rcases ended : live.resolve initial request [] with ⟨cause | configuration, calls⟩
  · obtain ⟨expansions, breaks, rfl⟩ := leaves.of_eq_error ended
    obtain ⟨profiles, early, late, rfl, first, second⟩ := breaks.parted
    exact ⟨early, late, profiles, callsOf_append early late, first, second, breaks⟩
  · obtain ⟨⟨expansions, comes, rfl⟩, _⟩ := leaves.of_eq_ok ended
    obtain ⟨early, late, rfl, first, second⟩ := comes.parted
    exact ⟨early, late, configuration.profiles, callsOf_append early late, first, second, rfl,
      comes⟩

end LiveRepository

end LayeredConfig
