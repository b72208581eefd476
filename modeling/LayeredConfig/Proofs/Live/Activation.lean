/-
This file says which layers the profiles of a resolution are computed from.

Profiles are computed once, from the tree that is explored while they are unknown, and the tree goes
on growing with them. A layer of the final tree was explored exactly if it was not attached in the
later phase. So what a layer that depends on no profile says about profiles counts, unless the layer
was attached too late. This happens below layers that depend on profiles, as their imports are not
read before; and it happens where a layer that was explored gets new children in the later phase.
With steady finders all children of the latter kind are for a profile, so that there is nothing left
but what lies below layers that depend on profiles.
-/

import LayeredConfig.Proofs.Live.Completion
import LayeredConfig.Proofs.Live.Exhaustion
import LayeredConfig.Proofs.Resolution.Rereading

namespace LayeredConfig

/-- The phase of a layer follows from the way in which it was found. -/
theorem Role.phase_eq_of_origin {role other : Role} (same : role.origin? = other.origin?) :
    role.phase = other.phase := by
  rw [phase, phase, same]

namespace LayerTree

/-! ### Late layers -/

/-- The layer lies below one that takes no part while profiles are unknown. -/
def BelowDependent (tree : LayerTree) (layer : Layer) : Prop :=
  ∃ above ∈ tree.layers, above.isActive none = false ∧ layer ∈ above.descendants

/-- The layer comes with a child that takes part while profiles are unknown, but was attached later
to a layer that also does. -/
def ImportedAnew (tree : LayerTree) (layer : Layer) : Prop :=
  ∃ parent ∈ tree.layers, parent.isActive none = true ∧ parent.role.phase = .before ∧
    ∃ found, parent.children .after = some found ∧
      ∃ child ∈ found, child.isActive none = true ∧ layer ∈ child.order

/-- On the way to a layer of the later phase, a layer depends on profiles or the phase changes. -/
theorem Orderly.late_cases {known : Option Profiles} {tree : LayerTree}
    (orderly : tree.Orderly known) {layer top : Layer} (active : layer.isActive none = true)
    (isLate : layer.role.phase = .after) (member : top ∈ tree.layers)
    (topActive : top.isActive none = true) (topEarly : top.role.phase = .before)
    (inside : layer ∈ top.order) : tree.BelowDependent layer ∨ tree.ImportedAnew layer := by
  induction top using Layer.treeInduction with
  | step top inductionHypothesis =>
    rcases Layer.mem_order.mp inside with below | rfl
    · obtain ⟨phase, found, attached, child, isChild, inChild⟩ := Layer.mem_descendants.mp below
      have childMember := child_mem_layers member attached isChild
      have childPhase := orderly.phase_of_child member attached isChild
      cases childActive : child.isActive none with
      | false =>
        rcases Layer.mem_order.mp inChild with belowChild | rfl
        · exact Or.inl ⟨child, childMember, childActive, belowChild⟩
        · rw [active] at childActive
          cases childActive
      | true =>
        cases phase with
        | before =>
          exact inductionHypothesis .before found attached child isChild childMember childActive
            childPhase inChild
        | after =>
          exact Or.inr ⟨top, member, topActive, topEarly, found, attached, child, isChild,
            childActive, inChild⟩
    · rw [isLate] at topEarly
      cases topEarly

end LayerTree

namespace LiveRepository

open LayerTree

section Grow

variable {live : LiveRepository} {known : Option Profiles} {tree final : LayerTree}
  {calls later : List Call}

/-- All that growing adds to a tree it attaches in its own phase. -/
theorem marks_of_growFrom (sound : tree.Sound known) {done remaining : Nat}
    (grows : live.growFrom known done remaining tree calls = (.ok final, later)) :
    ∀ mark ∈ final.marks,
      mark ∈ tree.marks ∨ ∃ origin, mark.origin? = some origin ∧ origin.phase = .ofKnown known := by
  induction remaining generalizing done tree calls with
  | zero =>
    rw [growFrom] at grows
    cases selected : tree.next? known with
    | none =>
      rw [selected] at grows
      cases grows
      exact fun mark => Or.inl
    | some layer =>
      rw [selected] at grows
      cases grows
  | succ remaining inductionHypothesis =>
    rw [growFrom] at grows
    cases selected : tree.next? known with
    | none =>
      rw [selected] at grows
      cases grows
      exact fun mark => Or.inl
    | some layer =>
      rw [selected] at grows
      obtain ⟨next, middle, worked, grows⟩ := Dialogue.bind_eq_ok.mp grows
      obtain ⟨gathered, stepped⟩ := stepped_of_work sound selected worked
      intro mark member
      rcases inductionHypothesis (stepped.sound sound) grows mark member with isNext | isNew
      · refine (stepped.mem_marks.mp isNext).imp_right fun isNew => ?_
        obtain ⟨load, _, isFind⟩ := mem_newMarks isNew
        exact ⟨_, origin_of_find isFind, rfl⟩
      · exact Or.inr isNew

end Grow

section Completed

variable {live : LiveRepository} {initial : List Source} {request : ProfileRequest}
  {configuration : Configuration} {explored : LayerTree} {calls : List Call}

/-- A layer of the final tree was explored exactly if the later phase has not attached it. -/
theorem Completed.mem_explored
    (completed : live.Completed initial request configuration explored calls) {layer : Layer}
    (member : layer ∈ configuration.tree.layers) :
    layer.mark ∈ explored.marks ↔ layer.role.phase = .before := by
  obtain ⟨⟨expansions, comes, _⟩, _⟩ := completed.arrives
  constructor
  · intro wasExplored
    obtain ⟨entry, isEntry, same⟩ := List.mem_map.mp wasExplored
    rw [← (comes.orderly.entries entry isEntry).unknown rfl]
    exact Role.phase_eq_of_origin (congrArg Mark.origin? same).symm
  · intro isEarly
    obtain ⟨later, grows⟩ := completed.grows
    refine (marks_of_growFrom (comes.sound.learn _) grows _ (mark_mem member)).resolve_right ?_
    rintro ⟨origin, isOrigin, isLate⟩
    have isAfter : layer.role.phase = .after := (Role.phase_of_origin isOrigin).trans isLate
    rw [isAfter] at isEarly
    cases isEarly

end Completed

/-- With steady finders, a layer that takes part while profiles are unknown gets no child in the
later phase that does so, too. -/
theorem not_importedAnew_of_steady {repository : Repository} (steady : repository.Steady)
    {initial : List Source} {request : ProfileRequest} {configuration : Configuration}
    (succeeded : (repository.live.resolve initial request []).1 = .ok configuration)
    (layer : Layer) : ¬configuration.tree.ImportedAnew layer := by
  rintro ⟨parent, member, active, isEarly, found, attached, child, isChild, childActive, _⟩
  obtain ⟨⟨expansions, comes, _⟩, _⟩ :=
    (leaves_resolve repository.live initial request).of_eq_ok (Prod.ext succeeded rfl)
  have orderly := comes.orderly
  have resolved : (Configuration.resolve repository initial request).outcome = .ok configuration :=
    (Repository.mirrors_resolve repository initial request []).1.symm.trans succeeded
  obtain ⟨⟨readings, reads, _⟩, _⟩ :=
    (Configuration.leaves_resolve repository initial request).of_ok resolved
  have isRead (imports : parent.imports ≠ []) : parent.children .before ≠ none := by
    have early : parent.role.ReadEarly :=
      ⟨imports, (Layer.isActive_eq none parent).symm.trans active, isEarly⟩
    have attached := (orderly.entries _ (entry_mem member)).finished (Option.some_ne_none _) early
    exact fun none => attached (congrArg (Option.map _) none)
  cases isOrigin : child.origin? with
  | none =>
    -- What was not found is there before any profiles are known.
    have isLate := orderly.phase_of_child member attached isChild
    rw [Role.phase, show child.role.origin? = none from isOrigin] at isLate
    cases isLate
  | some origin =>
    refine reads.tagged_of_reread steady member isRead attached isChild
      (congrArg (Option.map _) isOrigin) ?_
    exact Role.untagged_of_active ((Layer.isActive_eq none child).symm.trans childActive) isOrigin

/-! ### What the profiles are computed from -/

/-- The profiles of a resolution that succeeds are computed from the explored tree, which has all
layers of the final tree but those of the later phase. So a layer that takes part while profiles are
unknown, whatever it declares, has its part in them, unless it lies below a layer that depends on
profiles or comes with a child that was imported anew; and with steady finders, unless it lies below
a layer that depends on profiles. -/
theorem explored_of_resolve {live : LiveRepository} {initial : List Source}
    {request : ProfileRequest} {configuration : Configuration}
    (succeeded : (live.resolve initial request []).1 = .ok configuration) :
    ∃ explored calls, live.explore initial [] = (.ok explored, calls) ∧
      (Lookup.overTree explored none .strict).computeProfiles request =
        .ok configuration.profiles ∧
      (∀ layer ∈ configuration.tree.layers,
        layer.mark ∈ explored.marks ↔ layer.role.phase = .before) ∧
      (∀ layer ∈ configuration.tree.layers, layer.isActive none = true →
        layer.mark ∈ explored.marks ∨ configuration.tree.BelowDependent layer ∨
          configuration.tree.ImportedAnew layer) ∧
      ∀ repository : Repository, live = repository.live → repository.Steady →
        ∀ layer ∈ configuration.tree.layers, layer.isActive none = true →
          layer.mark ∈ explored.marks ∨ configuration.tree.BelowDependent layer := by
  obtain ⟨explored, calls, completed⟩ := completed_of_resolve succeeded
  obtain ⟨⟨expansions, comes, _⟩, _⟩ :=
    (leaves_resolve live initial request).of_eq_ok (Prod.ext succeeded rfl)
  have cases : ∀ layer ∈ configuration.tree.layers, layer.isActive none = true →
      layer.mark ∈ explored.marks ∨ configuration.tree.BelowDependent layer ∨
        configuration.tree.ImportedAnew layer := by
    intro layer member active
    cases isPhase : layer.role.phase with
    | before => exact Or.inl ((completed.mem_explored member).mpr isPhase)
    | after =>
      have isRoot := comes.role_root
      refine Or.inr (comes.orderly.late_cases active isPhase ?_ ?_ ?_
        (layers_eq configuration.tree ▸ member))
      · rw [layers_eq]
        exact Layer.self_mem_order _
      · rw [Layer.isActive_eq, isRoot]
        rfl
      · rw [isRoot]
        rfl
  refine ⟨explored, calls, completed.explores, completed.computed,
    fun layer member => completed.mem_explored member, cases, ?_⟩
  rintro repository rfl steady layer member active
  refine (cases layer member active).imp_right fun late => late.resolve_right ?_
  exact not_importedAnew_of_steady steady succeeded layer

/-- A source with a condition, which imports one that has none and includes a profile. -/
def lateTable : List (String × Bundle) :=
  [("gated", ⟨[.ofPairs "gated"
      [("config.activate.on-profile", "prod"), ("config.import", "late")]], false⟩),
    ("late", ⟨[.ofPairs "late" [("profiles.include", "x")]], false⟩)]

/-- The source that imports the one with a condition. -/
def gatedSource : Source :=
  .ofPairs "s" [("config.import", "gated")]

/-- Whether a layer that was not explored takes part while profiles are unknown, though, and
includes profiles. -/
def leavesOut (explored final : LayerTree) : Bool :=
  final.layers.any fun layer => layer.isActive none && layer.declares "profiles.include" &&
    !(explored.layers.map Layer.stamp).contains layer.stamp

theorem not_explored_of_leavesOut {explored final : LayerTree}
    (isLeft : leavesOut explored final = true) :
    ∃ layer ∈ final.layers, layer.isActive none = true ∧
      layer.declares "profiles.include" = true ∧ layer.mark ∉ explored.marks := by
  obtain ⟨layer, member, both⟩ := List.any_eq_true.mp isLeft
  rw [Bool.and_eq_true, Bool.and_eq_true, Bool.not_eq_true'] at both
  refine ⟨layer, member, both.1.1, both.1.2, fun isExplored => ?_⟩
  have isStamp : layer.stamp ∈ explored.layers.map Layer.stamp := by
    have inStamps := List.mem_map_of_mem (f := Mark.stamp) isExplored
    rwa [marks_eq, List.map_map] at inStamps
  exact Bool.false_ne_true (both.2.symm.trans (List.contains_iff_mem.mpr isStamp))

theorem leavesOut_lateTable :
    ∃ configuration explored calls,
      ((Repository.ofTable lateTable).live.resolve [gatedSource] (.withActive ["prod"]) []).1 =
        .ok configuration ∧
      (Repository.ofTable lateTable).live.explore [gatedSource] [] = (.ok explored, calls) ∧
      leavesOut explored configuration.tree = true := by
  have isLeft : ((Repository.ofTable lateTable).live.explore [gatedSource] []).1.toOption.bind
      (fun explored => ((Repository.ofTable lateTable).live.resolve [gatedSource]
        (.withActive ["prod"]) []).1.toOption.map fun configuration =>
          leavesOut explored configuration.tree) = some true := by
    decide +kernel
  obtain ⟨explored, isExplored, resolves⟩ := Option.bind_eq_some_iff.mp isLeft
  obtain ⟨configuration, succeeded, isLeft⟩ := exists_ok_of_map resolves
  exact ⟨configuration, explored, _, succeeded, Prod.ext (ok_of_toOption isExplored) rfl, isLeft⟩

/-- The source that is imported late lies below the one with a condition. -/
theorem explored_of_resolve_lateTable :
    ∃ configuration,
      ((Repository.ofTable lateTable).live.resolve [gatedSource] (.withActive ["prod"]) []).1 =
        .ok configuration ∧
      ∃ layer ∈ configuration.tree.layers, layer.isActive none = true ∧
        layer.declares "profiles.include" = true ∧ layer.role.phase ≠ .before ∧
        configuration.tree.BelowDependent layer := by
  obtain ⟨configuration, explored, calls, succeeded, explores, isLeft⟩ := leavesOut_lateTable
  obtain ⟨layer, member, active, declares, notExplored⟩ := not_explored_of_leavesOut isLeft
  obtain ⟨other, _, otherExplores, _, isEarly, _, steady⟩ := explored_of_resolve succeeded
  obtain rfl := Except.ok.inj (congrArg Prod.fst (otherExplores.symm.trans explores))
  exact ⟨configuration, succeeded, layer, member, active, declares,
    mt (isEarly layer member).mpr notExplored,
    (steady _ rfl (Repository.steady_ofTable _) layer member active).resolve_left notExplored⟩

/-- What a source that is imported late says about profiles has no part in them. -/
theorem include_of_late_source_left_out :
    ¬ ∀ (live : LiveRepository) (initial : List Source) (request : ProfileRequest)
        (configuration : Configuration) (explored : LayerTree) (calls : List Call),
      (live.resolve initial request []).1 = .ok configuration →
      live.explore initial [] = (.ok explored, calls) →
      ∀ layer ∈ configuration.tree.layers, layer.isActive none = true →
        ∀ name ∈ PropertyName.selecting, layer.declares name = true →
          layer.mark ∈ explored.marks := by
  intro allExplored
  obtain ⟨configuration, explored, calls, succeeded, explores, isLeft⟩ := leavesOut_lateTable
  obtain ⟨layer, member, active, declares, notExplored⟩ := not_explored_of_leavesOut isLeft
  exact notExplored (allExplored _ _ _ configuration explored calls succeeded explores layer
    member active "profiles.include" (by decide) declares)

/-- A table whose finder does not tag the variants that it finds. -/
def untaggedRepository : Repository :=
  let table := [("a", ⟨[], false⟩),
    ("a#any", ⟨[.ofPairs "late" [("profiles.include", "x")]], false⟩)]
  { Repository.ofTable table with
    finders := [{ Repository.tableFinder table with
      findVariants := fun _ location _ =>
        .ok (Repository.inTable table location (location.value ++ "#any") none) }] }

/-- Without tags, a source is imported late although no layer depends on profiles. -/
theorem late_without_dependent :
    ¬ ∀ (live : LiveRepository) (initial : List Source) (request : ProfileRequest)
        (configuration : Configuration) (explored : LayerTree) (calls : List Call),
      (live.resolve initial request []).1 = .ok configuration →
      live.explore initial [] = (.ok explored, calls) →
      ∀ layer ∈ configuration.tree.layers, layer.isActive none = true →
        layer.mark ∈ explored.marks ∨ configuration.tree.BelowDependent layer := by
  intro allExplored
  have isLeft : (untaggedRepository.live.explore [.ofPairs "s" [("config.import", "a")]]
      []).1.toOption.bind (fun explored =>
        (untaggedRepository.live.resolve [.ofPairs "s" [("config.import", "a")]] .unset
          []).1.toOption.map fun configuration =>
            (configuration.tree.layers.all (·.isActive none),
              leavesOut explored configuration.tree)) = some (true, true) := by
    decide +kernel
  obtain ⟨explored, isExplored, resolves⟩ := Option.bind_eq_some_iff.mp isLeft
  obtain ⟨configuration, succeeded, both⟩ := exists_ok_of_map resolves
  obtain ⟨allActive, isLeft⟩ := Prod.ext_iff.mp both
  obtain ⟨layer, member, active, _, notExplored⟩ := not_explored_of_leavesOut isLeft
  rcases allExplored _ _ _ configuration explored _ succeeded
    (Prod.ext (ok_of_toOption isExplored) rfl) layer member active with isExplored | below
  · exact notExplored isExplored
  · obtain ⟨above, isAbove, inactive, _⟩ := below
    exact Bool.false_ne_true (inactive.symm.trans (List.all_eq_true.mp allActive above isAbove))

end LiveRepository

end LayeredConfig
