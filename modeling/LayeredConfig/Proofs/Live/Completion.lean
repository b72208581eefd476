/-
This file takes a resolution that succeeds apart.

While profiles are unknown, the tree of the given sources grows until nothing is left to do. From
the tree that is explored then the profiles are computed, and never again. With them the tree grows
to its end, and at last the layers that depend on profiles are checked.
-/

import LayeredConfig.Proofs.Live.Expansion

namespace LayeredConfig

open LayerTree

namespace LiveRepository

/-- Binds the given sources, the strongest first, and grows their tree while profiles are unknown.
-/
def explore (live : LiveRepository) (initial : List Source) : Dialogue LayerTree := do
  let given ← Dialogue.ofExcept (ofBoundSources initial)
  let first ← live.grow none given
  live.grow none first

/-- The parts of a resolution that succeeds. -/
structure Completed (live : LiveRepository) (initial : List Source) (request : ProfileRequest)
    (configuration : Configuration) (explored : LayerTree) (calls : List Call) : Prop where
  explores : live.explore initial [] = (.ok explored, calls)
  computed : (Lookup.overTree explored none .strict).computeProfiles request =
    .ok configuration.profiles
  grows : ∃ later, live.grow configuration.known explored calls = (.ok configuration.tree, later)
  checked : checkSelecting configuration.tree.layers = .ok ()

section Completed

variable {live : LiveRepository} {initial : List Source} {request : ProfileRequest}
  {configuration : Configuration} {explored : LayerTree} {calls : List Call}

theorem completed_of_resolve
    (succeeded : (live.resolve initial request []).1 = .ok configuration) :
    ∃ explored calls, live.Completed initial request configuration explored calls := by
  obtain ⟨given, _, isGiven, succeeded⟩ := Dialogue.bind_eq_ok.mp (Prod.ext succeeded rfl)
  obtain ⟨first, _, isFirst, succeeded⟩ := Dialogue.bind_eq_ok.mp succeeded
  obtain ⟨explored, calls, isExplored, succeeded⟩ := Dialogue.bind_eq_ok.mp succeeded
  obtain ⟨profiles, _, areProfiles, succeeded⟩ := Dialogue.bind_eq_ok.mp succeeded
  obtain ⟨computed, rfl⟩ := Dialogue.ofExcept_eq_ok.mp areProfiles
  obtain ⟨tree, later, isGrown, succeeded⟩ := Dialogue.bind_eq_ok.mp succeeded
  obtain ⟨_, _, isChecked, ended⟩ := Dialogue.bind_eq_ok.mp succeeded
  obtain rfl := Except.ok.inj (congrArg Prod.fst ended)
  have explores : live.explore initial [] = (.ok explored, calls) :=
    Dialogue.bind_eq_ok.mpr
      ⟨given, _, isGiven, Dialogue.bind_eq_ok.mpr ⟨first, _, isFirst, isExplored⟩⟩
  exact ⟨explored, calls, explores, computed, ⟨later, isGrown⟩,
    (Dialogue.ofExcept_eq_ok.mp isChecked).1⟩

/-- The explored tree is one that the resolution comes to, and nothing is left to do in it. -/
theorem Completed.arrives
    (completed : live.Completed initial request configuration explored calls) :
    live.Arrives initial request none explored calls ∧ explored.next? none = none := by
  have start : (Dialogue.ofExcept (ofBoundSources initial)).Leaves []
      (live.Arrives initial request none) (live.Stops initial request) :=
    Dialogue.leaves_ofExcept (fun tree bound => ⟨[], .start bound, rfl⟩)
      fun cause failed => ⟨[], .start failed, rfl⟩
  have arrives : (live.explore initial).Leaves []
      (fun explored calls => live.Arrives initial request none explored calls ∧
        explored.next? none = none) (live.Stops initial request) :=
    start.bind fun given _ arrivesGiven =>
      (leaves_grow arrivesGiven).bind fun first _ arrivesFirst => leaves_grow arrivesFirst.1
  exact arrives.of_eq_ok completed.explores

end Completed

end LiveRepository

end LayeredConfig
