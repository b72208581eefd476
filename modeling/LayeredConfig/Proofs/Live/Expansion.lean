/-
This file tells a resolution with a changing repository by its expansions.

An expansion is one reading of the imports of a layer, with all the calls that it makes. A
resolution makes no calls but those of its expansions, one expansion after the other, and this is
also true of a resolution that fails, where the last expansion may have failed. Every tree on the
way is sound, whatever the finders and readers answer, and a phase has come to the layers that were
expanded in it.
-/

import LayeredConfig.Proofs.Growth.Mark
import LayeredConfig.Proofs.Growth.Start
import LayeredConfig.Proofs.Live.Loading

namespace LayeredConfig

open LayerTree

/-! ### Expansions -/

/-- The imports of a layer are read, in the state in which the layer is then. -/
structure Expansion where
  layer : Layer
  /-- What is known about profiles. -/
  known : Option Profiles
  /-- The calls that are made meanwhile. -/
  calls : List Call

namespace Expansion

/-- The calls of some expansions, one expansion after the other. -/
def callsOf (expansions : List Expansion) : List Call :=
  expansions.flatMap Expansion.calls

theorem callsOf_append (first second : List Expansion) :
    callsOf (first ++ second) = callsOf first ++ callsOf second :=
  List.flatMap_append

theorem callsOf_singleton (expansion : Expansion) : callsOf [expansion] = expansion.calls :=
  List.flatMap_singleton _ _

/-- What is expanded in the work on a layer: nothing if the layer is only bound. -/
def ofWork (known : Option Profiles) (layer : Layer) (calls : List Call) : List Expansion :=
  if layer.role.isFound then [] else [⟨layer, known, calls⟩]

theorem ofWork_of_found {known : Option Profiles} {layer : Layer} {calls : List Call}
    (isFound : layer.role.isFound = true) : ofWork known layer calls = [] :=
  if_pos isFound

theorem ofWork_of_ready {known : Option Profiles} {layer : Layer} {calls : List Call}
    (ready : layer.role.isFound = false) : ofWork known layer calls = [⟨layer, known, calls⟩] :=
  if_neg (Bool.not_eq_true _ ▸ ready)

theorem mem_ofWork {known : Option Profiles} {layer : Layer} {calls : List Call}
    {expansion : Expansion} : expansion ∈ ofWork known layer calls ↔
      layer.role.isFound = false ∧ expansion = ⟨layer, known, calls⟩ := by
  cases isFound : layer.role.isFound with
  | true => simp [ofWork_of_found isFound]
  | false => simp [ofWork_of_ready isFound]

end Expansion

namespace LiveRepository

open Expansion

section Work

variable {live : LiveRepository} {known : Option Profiles} {tree next : LayerTree} {layer : Layer}
  {calls later : List Call}

/-- The calls of the work on a layer are those of an expansion, or there are none. -/
theorem calls_work (live : LiveRepository) (known : Option Profiles) (tree : LayerTree)
    (layer : Layer) (expansions : List Expansion) :
    ∃ made, (live.work known tree layer (callsOf expansions)).2 =
      callsOf (expansions ++ ofWork known layer made) := by
  cases isFound : layer.role.isFound with
  | true =>
    refine ⟨[], ?_⟩
    rw [work_of_found isFound, ofWork_of_found isFound, List.append_nil]
  | false =>
    obtain ⟨made, added, _⟩ := adds_gatherFor live known tree layer (callsOf expansions)
    refine ⟨made, ?_⟩
    rw [work_of_ready isFound, ofWork_of_ready isFound, callsOf_append, added, callsOf_singleton]

/-- All that an expansion calls is told what is known. -/
theorem sees_of_work {expansions : List Expansion} {made : List Call}
    (worked : (live.work known tree layer (callsOf expansions)).2 =
      callsOf (expansions ++ ofWork known layer made)) :
    ∀ expansion ∈ ofWork known layer made, ∀ call ∈ expansion.calls, call.Sees known := by
  intro expansion member
  obtain ⟨ready, rfl⟩ := mem_ofWork.mp member
  obtain ⟨others, added, sees⟩ := adds_gatherFor live known tree layer (callsOf expansions)
  rw [work_of_ready ready, ofWork_of_ready ready, callsOf_append, added,
    callsOf_singleton] at worked
  rwa [← List.append_cancel_left worked]

/-- Work that succeeds is a step, and what it attaches is what it loads. -/
theorem stepped_with_loads (sound : tree.Sound known) (selected : tree.next? known = some layer)
    (worked : live.work known tree layer calls = (.ok next, later)) :
    ∃ gathered, Stepped (Phase.ofKnown known) tree next layer gathered ∧
      (∀ load ∈ gathered, live.Loads load) ∧
      (live.work known tree layer).LoadsOnce tree.loaded calls gathered := by
  have member := mem_of_next selected
  cases isFound : layer.role.isFound with
  | true =>
    rw [work_of_found isFound, Prod.mk.injEq] at worked
    exact ⟨[], stepped_of_bind sound member isFound worked.1 _, nofun, loads_work_of_found isFound⟩
  | false =>
    obtain ⟨_, _, pending⟩ := pending_of_next selected isFound
    obtain ⟨loads, once, result⟩ := loads_work_of_ready live known tree isFound calls
    rw [work_of_ready isFound, Prod.mk.injEq] at worked
    cases found : (live.gatherFor known tree layer calls).1 with
    | error cause =>
      rw [found] at worked
      cases worked.1
    | ok gathered =>
      rw [found] at worked
      obtain rfl := Except.ok.inj worked.1
      obtain rfl := result gathered found
      exact ⟨gathered, stepped_of_attach sound member isFound pending gathered,
        loads_gather (Prod.ext found rfl), once⟩

theorem stepped_of_work (sound : tree.Sound known) (selected : tree.next? known = some layer)
    (worked : live.work known tree layer calls = (.ok next, later)) :
    ∃ gathered, Stepped (Phase.ofKnown known) tree next layer gathered := by
  obtain ⟨gathered, stepped, _⟩ := stepped_with_loads sound selected worked
  exact ⟨gathered, stepped⟩

end Work

/-! ### Resolutions by their expansions -/

section Comes

variable (live : LiveRepository) (initial : List Source) (request : ProfileRequest)

/-- A resolution comes to a tree, knowing what it does about profiles, by the given expansions. -/
inductive Comes : Option Profiles → LayerTree → List Expansion → Prop where
  | start {tree : LayerTree} (bound : ofBoundSources initial = .ok tree) : Comes none tree []
  | step {known : Option Profiles} {tree next : LayerTree} {layer : Layer}
      {expansions : List Expansion} {made : List Call} (comes : Comes known tree expansions)
      (selected : tree.next? known = some layer)
      (worked : live.work known tree layer (callsOf expansions) =
        (.ok next, callsOf (expansions ++ ofWork known layer made))) :
      Comes known next (expansions ++ ofWork known layer made)
  | learn {tree : LayerTree} {expansions : List Expansion} {profiles : Profiles}
      (comes : Comes none tree expansions) (finished : tree.next? none = none)
      (computed : (Lookup.overTree tree none .strict).computeProfiles request = .ok profiles) :
      Comes (some profiles) tree expansions

/-- A resolution fails, after the given expansions. -/
inductive Breaks : Error → List Expansion → Prop where
  | start {cause : Error} (failed : ofBoundSources initial = .error cause) : Breaks cause []
  | step {known : Option Profiles} {tree : LayerTree} {layer : Layer} {cause : Error}
      {expansions : List Expansion} {made : List Call}
      (comes : Comes live initial request known tree expansions)
      (selected : tree.next? known = some layer)
      (failed : live.work known tree layer (callsOf expansions) =
        (.error cause, callsOf (expansions ++ ofWork known layer made))) :
      Breaks cause (expansions ++ ofWork known layer made)
  /-- There are steps left to take, but none left to be had. -/
  | limit {known : Option Profiles} {tree : LayerTree} {layer : Layer} {steps : Nat}
      {expansions : List Expansion} (comes : Comes live initial request known tree expansions)
      (selected : tree.next? known = some layer) : Breaks (.unfinished steps) expansions
  | learn {tree : LayerTree} {cause : Error} {expansions : List Expansion}
      (comes : Comes live initial request none tree expansions)
      (failed : (Lookup.overTree tree none .strict).computeProfiles request = .error cause) :
      Breaks cause expansions
  | check {profiles : Profiles} {tree : LayerTree} {cause : Error} {expansions : List Expansion}
      (comes : Comes live initial request (some profiles) tree expansions)
      (failed : checkSelecting tree.layers = .error cause) : Breaks cause expansions

/-- A resolution comes to a tree, with the given calls. -/
def Arrives (known : Option Profiles) (tree : LayerTree) (calls : List Call) : Prop :=
  ∃ expansions, live.Comes initial request known tree expansions ∧ calls = callsOf expansions

/-- A resolution fails, with the given calls. -/
def Stops (cause : Error) (calls : List Call) : Prop :=
  ∃ expansions, live.Breaks initial request cause expansions ∧ calls = callsOf expansions

end Comes

section Leaves

variable {live : LiveRepository} {initial : List Source} {request : ProfileRequest}
  {known : Option Profiles} {tree : LayerTree} {calls : List Call}

/-! ### Every resolution ends so -/

theorem leaves_work (arrives : live.Arrives initial request known tree calls) {layer : Layer}
    (selected : tree.next? known = some layer) :
    (live.work known tree layer).Leaves calls (live.Arrives initial request known)
      (live.Stops initial request) := by
  obtain ⟨expansions, comes, rfl⟩ := arrives
  obtain ⟨made, added⟩ := calls_work live known tree layer expansions
  rcases ended : live.work known tree layer (callsOf expansions) with ⟨cause | next, later⟩
  · rw [ended] at added
    obtain rfl : later = _ := added
    rw [Dialogue.Leaves, ended]
    exact ⟨_, .step comes selected ended, rfl⟩
  · rw [ended] at added
    obtain rfl : later = _ := added
    rw [Dialogue.Leaves, ended]
    exact ⟨_, .step comes selected ended, rfl⟩

theorem leaves_growFrom (arrives : live.Arrives initial request known tree calls)
    (done remaining : Nat) :
    (live.growFrom known done remaining tree).Leaves calls
      (fun final later => live.Arrives initial request known final later ∧
        final.next? known = none)
      (live.Stops initial request) := by
  induction remaining generalizing done tree calls with
  | zero =>
    rw [growFrom]
    cases selected : tree.next? known with
    | none => exact ⟨arrives, selected⟩
    | some layer =>
      obtain ⟨expansions, comes, rfl⟩ := arrives
      refine Dialogue.leaves_ofExcept (fun _ succeeded => ?_) fun cause failed => ?_
      · cases succeeded
      · cases failed
        exact ⟨expansions, .limit comes selected, rfl⟩
  | succ remaining inductionHypothesis =>
    rw [growFrom]
    cases selected : tree.next? known with
    | none => exact ⟨arrives, selected⟩
    | some layer =>
      exact (leaves_work arrives selected).bind fun next later arrivesNext =>
        inductionHypothesis arrivesNext (done + 1)

theorem leaves_grow (arrives : live.Arrives initial request known tree calls) :
    (live.grow known tree).Leaves calls
      (fun final later => live.Arrives initial request known final later ∧
        final.next? known = none)
      (live.Stops initial request) :=
  leaves_growFrom arrives 0 live.stepLimit

/-- A resolution ends with a tree that it comes to and in which nothing is left to do, or it fails,
and its calls are those of the expansions up to there. -/
theorem leaves_resolve (live : LiveRepository) (initial : List Source) (request : ProfileRequest) :
    (live.resolve initial request).Leaves []
      (fun configuration calls =>
        live.Arrives initial request configuration.known configuration.tree calls ∧
          configuration.tree.next? configuration.known = none)
      (live.Stops initial request) := by
  have start : (Dialogue.ofExcept (ofBoundSources initial)).Leaves []
      (live.Arrives initial request none) (live.Stops initial request) :=
    Dialogue.leaves_ofExcept (fun tree bound => ⟨[], .start bound, rfl⟩)
      fun cause failed => ⟨[], .start failed, rfl⟩
  refine start.bind fun given _ arrivesGiven => ?_
  refine (leaves_grow arrivesGiven).bind fun first _ ⟨arrivesFirst, _⟩ => ?_
  refine (leaves_grow arrivesFirst).bind fun second calls ⟨arrivesSecond, finished⟩ => ?_
  obtain ⟨expansions, comes, rfl⟩ := arrivesSecond
  have learn : (Dialogue.ofExcept
      ((Lookup.overTree second none .strict).computeProfiles request)).Leaves (callsOf expansions)
      (fun profiles => live.Arrives initial request (some profiles) second)
      (live.Stops initial request) :=
    Dialogue.leaves_ofExcept
      (fun profiles computed => ⟨expansions, .learn comes finished computed, rfl⟩)
      fun cause failed => ⟨expansions, .learn comes failed, rfl⟩
  refine learn.bind fun profiles _ arrivesLearn => ?_
  refine (leaves_grow arrivesLearn).bind fun tree calls ⟨arrives, ended⟩ => ?_
  obtain ⟨expansions, comes, rfl⟩ := arrives
  have check : (Dialogue.ofExcept (checkSelecting tree.layers)).Leaves (callsOf expansions)
      (fun _ calls => calls = callsOf expansions) (live.Stops initial request) :=
    Dialogue.leaves_ofExcept (fun _ _ => rfl) fun cause failed =>
      ⟨expansions, .check comes failed, rfl⟩
  refine check.bind fun _ calls same => ?_
  exact ⟨⟨expansions, comes, same⟩, ended⟩

end Leaves

/-! ### What holds in every tree -/

section Comes

variable {live : LiveRepository} {initial : List Source} {request : ProfileRequest}
  {known : Option Profiles} {tree next : LayerTree} {layer : Layer} {expansions : List Expansion}

theorem Comes.sound (comes : live.Comes initial request known tree expansions) :
    tree.Sound known := by
  induction comes with
  | start bound => exact (start_of_ofBoundSources bound).1
  | step _ selected worked inductionHypothesis =>
    obtain ⟨gathered, stepped⟩ := stepped_of_work inductionHypothesis selected worked
    exact stepped.sound inductionHypothesis
  | learn _ _ _ inductionHypothesis => exact inductionHypothesis.learn _

theorem Comes.role_root (comes : live.Comes initial request known tree expansions) :
    tree.root.role = .root := by
  induction comes with
  | start bound => exact role_root_start bound
  | step comes selected worked inductionHypothesis =>
    obtain ⟨gathered, stepped⟩ := stepped_of_work comes.sound selected worked
    exact stepped.role_root inductionHypothesis
  | learn _ _ _ inductionHypothesis => exact inductionHypothesis

/-- A phase has come to every layer that was expanded in it. -/
theorem Comes.attached (comes : live.Comes initial request known tree expansions) :
    ∀ expansion ∈ expansions,
      tree.Attached expansion.layer.stamp (Phase.ofKnown expansion.known) := by
  induction comes with
  | start =>
    intro expansion member
    cases member
  | @step known tree next layer expansions made comes selected worked inductionHypothesis =>
    obtain ⟨gathered, stepped⟩ := stepped_of_work comes.sound selected worked
    intro expansion member
    rcases List.mem_append.mp member with isOld | isNew
    · exact stepped.keeps_attached comes.sound (inductionHypothesis expansion isOld)
    · obtain ⟨ready, rfl⟩ := mem_ofWork.mp isNew
      exact stepped.attached_new ready
  | learn _ _ _ inductionHypothesis => exact inductionHypothesis

end Comes

end LiveRepository

end LayeredConfig
