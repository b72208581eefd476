/-
This file says which layers have had their imports read when a resolution ends.

Growing stops only where no layer needs work. While profiles are unknown, that leaves every layer
with imports read that takes part then; once they are known, it leaves every layer read that takes
part at last. Neither phase reads a layer that takes no part in it, and since a layer that takes
part while profiles are unknown does so to the end, a layer that takes no part at last was never
read. All layers that the later phase attaches are new to it, so nothing below them was read in the
earlier one. This rests on the steps alone, whatever the finders and readers answer.
-/

import LayeredConfig.Proofs.Layer.Activity
import LayeredConfig.Proofs.Import.Table
import LayeredConfig.Proofs.Live.Expansion

namespace LayeredConfig

/-! ### Entries in order -/

/-- A layer in this role is to be read while profiles are unknown. -/
structure Role.ReadEarly (role : Role) : Prop where
  imports : role.imports ≠ []
  active : role.isActive none = true
  phase : role.phase = .before

theorem Role.readEarly_opened {role : Role} : role.opened.ReadEarly ↔ role.ReadEarly := by
  constructor
  · rintro ⟨imports, active, phase⟩
    rw [imports_opened] at imports
    rw [isActive_opened] at active
    rw [phase_opened] at phase
    exact ⟨imports, active, phase⟩
  · rintro ⟨imports, active, phase⟩
    exact ⟨imports_opened role ▸ imports, isActive_opened none role ▸ active,
      phase_opened role ▸ phase⟩

/-- What a phase has done for an entry, or has not. -/
structure Entry.Orderly (known : Option Profiles) (entry : Entry) : Prop where
  /-- No layer is attached in the later phase before profiles are known. -/
  unknown : known = none → entry.role.phase = .before
  /-- A layer that is not bound yet was found in this phase. -/
  found : entry.role.isFound = true → entry.role.phase = Phase.ofKnown known
  early : entry.children .before ≠ none → entry.role = .root ∨ entry.role.ReadEarly
  late : entry.children .after ≠ none → entry.role.isActive known = true
  /-- The earlier phase is over once profiles are known. -/
  finished : known ≠ none → entry.role.ReadEarly → entry.children .before ≠ none

namespace Entry

variable {known : Option Profiles} {entry : Entry}

theorem orderly_of_leaf (leaf : ∀ phase, entry.children phase = none)
    (unknown : known = none → entry.role.phase = .before)
    (found : entry.role.isFound = true → entry.role.phase = Phase.ofKnown known)
    (finished : known ≠ none → ¬entry.role.ReadEarly) : entry.Orderly known :=
  ⟨unknown, found, fun attached => absurd (leaf .before) attached,
    fun attached => absurd (leaf .after) attached,
    fun isKnown readEarly => absurd readEarly (finished isKnown)⟩

theorem orderly_new {layer : Layer} {origin : Origin} {source : Source}
    (role : layer.role = .found origin source) (phase : origin.phase = Phase.ofKnown known)
    (leaf : ∀ phase, layer.children phase = none) : layer.entry.Orderly known := by
  have isPhase : layer.role.phase = Phase.ofKnown known := by
    rw [role]
    exact phase
  refine orderly_of_leaf (fun other => ?_) (fun unknown => ?_) (fun _ => isPhase) fun _ early => ?_
  · rw [Layer.children_entry, leaf, Option.map_none]
  · exact isPhase.trans (unknown ▸ rfl)
  · have active := early.active
    rw [show layer.entry.role = _ from role] at active
    cases active

theorem Orderly.bound {origin : Origin} {source : Source} (orderly : entry.Orderly known)
    (role : entry.role = .found origin source) (leaf : ∀ phase, entry.children phase = none)
    (declared : Declared) : (entry.withRole (.bound origin source declared)).Orderly known := by
  have isPhase : origin.phase = Phase.ofKnown known := by
    have found := orderly.found
    rw [role] at found
    exact found rfl
  refine orderly_of_leaf leaf (fun unknown => ?_) (fun isFound => ?_) fun isKnown early => ?_
  · exact isPhase.trans (unknown ▸ rfl)
  · cases isFound
  · -- What is found once profiles are known was attached in the later phase.
    obtain ⟨profiles, rfl⟩ := Option.ne_none_iff_exists'.mp isKnown
    have isBefore : origin.phase = .before := early.phase
    rw [isPhase] at isBefore
    cases isBefore

theorem Orderly.attach (orderly : entry.Orderly known) (ready : entry.role.isFound = false)
    (active : entry.role.isActive known = true) (imports : entry.role.imports ≠ [])
    (stamps : List Nat) : (entry.attach (Phase.ofKnown known) stamps).Orderly known := by
  cases known with
  | none =>
    have unknown := orderly.unknown rfl
    refine ⟨fun _ => ?_, fun isFound => ?_, fun _ => ?_, ?_, fun isKnown => absurd rfl isKnown⟩
    · exact (Role.phase_opened _).trans unknown
    · exact (Role.phase_opened _).trans unknown
    · exact Or.inr (Role.readEarly_opened.mpr ⟨imports, active, unknown⟩)
    · intro attached
      exact (Role.isActive_opened _ _).trans (orderly.late attached)
  | some profiles =>
    refine ⟨fun unknown => ?_, fun isFound => ?_, fun attached => ?_, fun _ => ?_,
      fun isKnown early => ?_⟩
    · cases unknown
    · rw [show (entry.attach _ stamps).role = entry.role.opened from rfl, Role.isFound_opened,
        ready] at isFound
      cases isFound
    · refine (orderly.early attached).imp (fun isRoot => ?_) Role.readEarly_opened.mpr
      show entry.role.opened = .root
      rw [isRoot]
      rfl
    · exact (Role.isActive_opened _ _).trans active
    · exact orderly.finished isKnown (Role.readEarly_opened.mp early)

end Entry

/-! ### Trees in order -/

namespace LayerTree

/-- What holds of a tree beside its soundness, given what is known about profiles. -/
structure Orderly (known : Option Profiles) (tree : LayerTree) : Prop where
  entries : ∀ entry ∈ tree.entries, entry.Orderly known
  /-- The children that a phase attached are of that phase. -/
  phases : ∀ parent ∈ tree.entries, ∀ phase stamps, parent.children phase = some stamps →
    ∀ child ∈ tree.entries, child.stamp ∈ stamps → child.role.phase = phase

/-- The stamps of children are stamps of the tree. -/
theorem entry_of_child {tree : LayerTree} {parent : Entry} (member : parent ∈ tree.entries)
    {phase : Phase} {stamps : List Nat} (attached : parent.children phase = some stamps)
    {stamp : Nat} (isChild : stamp ∈ stamps) : ∃ child ∈ tree.entries, child.stamp = stamp := by
  obtain ⟨layer, inLayers, rfl⟩ := List.mem_map.mp member
  obtain ⟨found, isFound, rfl⟩ := Option.map_eq_some_iff.mp attached
  obtain ⟨child, inFound, rfl⟩ := List.mem_map.mp isChild
  exact ⟨child.entry, entry_mem (child_mem_layers inLayers isFound inFound), rfl⟩

theorem orderly_start {sources : List Source} {tree : LayerTree}
    (bound : ofBoundSources sources = .ok tree) : tree.Orderly none := by
  constructor
  · intro entry member
    rcases entry_start bound member with ⟨leaf, source, imports, role⟩ | ⟨noLater, role⟩
    · refine Entry.orderly_of_leaf leaf (fun _ => ?_) (fun _ => ?_) (absurd rfl)
      · rw [role]
        rfl
      · rw [role]
        rfl
    · refine ⟨fun _ => ?_, fun _ => ?_, fun _ => Or.inl role, absurd noLater, absurd rfl⟩
      · rw [role]
        rfl
      · rw [role]
        rfl
  · intro parent isParent phase stamps attached child isChild _
    have given : child.role.phase = .before := by
      rcases entry_start bound isChild with ⟨_, source, imports, role⟩ | ⟨_, role⟩
      · rw [role]
        rfl
      · rw [role]
        rfl
    rw [given]
    cases phase with
    | before => rfl
    | after =>
      rcases entry_start bound isParent with ⟨leaf, _⟩ | ⟨noLater, _⟩
      · rw [leaf] at attached
        cases attached
      · rw [noLater] at attached
        cases attached

section Step

variable {known : Option Profiles} {tree next : LayerTree} {layer : Layer}
  {gathered : List (Resource × Bundle)}

/-- A step only turns to a layer that takes part and has imports, or that is not bound yet. -/
theorem Orderly.entries_step (orderly : tree.Orderly known) (sound : tree.Sound known)
    (selected : tree.next? known = some layer)
    (stepped : Stepped (Phase.ofKnown known) tree next layer gathered) :
    ∀ entry ∈ next.entries, entry.Orderly known := by
  intro entry member
  cases stepped.entryAfter member with
  | kept isOld => exact orderly.entries _ isOld
  | bound role isLayer =>
    have leaf := sound.tidy _ isLayer (by show layer.role.isClosed = true; rw [role]; rfl)
    exact (orderly.entries _ isLayer).bound role leaf _
  | attached ready _ isLayer =>
    obtain ⟨active, imports, _⟩ := pending_of_next selected ready
    rw [Layer.isActive_eq] at active
    exact (orderly.entries _ isLayer).attach ready active imports _
  | fresh isNew =>
    obtain ⟨origin, source, role, phase⟩ := role_newLayers isNew
    exact Entry.orderly_new role phase (leaf_newLayers isNew)

/-- An entry of the next tree is a later state of one that was there, or that of a new layer. -/
theorem Stepped.old_or_new {phase : Phase} (stepped : Stepped phase tree next layer gathered)
    {entry : Entry} (member : entry ∈ next.entries) :
    (∃ old ∈ tree.entries, old.stamp = entry.stamp ∧ old.role.phase = entry.role.phase ∧
        ∀ other stamps, entry.children other = some stamps → old.children other = some stamps ∨
          other = phase ∧ stamps = (tree.newLayers phase gathered).map Layer.stamp) ∨
      ∃ new ∈ tree.newLayers phase gathered, entry = new.entry := by
  cases stepped.entryAfter member with
  | kept isOld => exact Or.inl ⟨entry, isOld, rfl, rfl, fun _ _ => Or.inl⟩
  | bound role isLayer =>
    refine Or.inl ⟨layer.entry, isLayer, rfl, ?_, fun _ _ => Or.inl⟩
    rw [show layer.entry.role = _ from role]
    rfl
  | attached _ _ isLayer =>
    refine Or.inl ⟨layer.entry, isLayer, rfl, (Role.phase_opened _).symm, fun other stamps => ?_⟩
    rw [Entry.children_attach]
    split
    · next same => exact fun attached => Or.inr ⟨same, (Option.some.inj attached).symm⟩
    · exact Or.inl
  | fresh isNew => exact Or.inr ⟨_, isNew, rfl⟩

theorem Orderly.phases_step {phase : Phase} (orderly : tree.Orderly known)
    (sound : tree.Sound known) (stepped : Stepped phase tree next layer gathered) :
    ∀ parent ∈ next.entries, ∀ other stamps, parent.children other = some stamps →
      ∀ child ∈ next.entries, child.stamp ∈ stamps → child.role.phase = other := by
  intro parent isParent other stamps attached child isChild inStamps
  -- Only new layers have the stamps of new layers.
  have tooNew {stamp : Nat} (isNew : stamp ∈ (tree.newLayers phase gathered).map Layer.stamp)
      {old : Entry} (isOld : old ∈ tree.entries) : old.stamp ≠ stamp := by
    obtain ⟨new, inNew, rfl⟩ := List.mem_map.mp isNew
    have := sound.bounded old isOld
    have := (stamp_newLayers inNew).1
    omega
  rcases stepped.old_or_new isParent with ⟨oldParent, wasParent, _, _, before⟩ | ⟨new, isNew, rfl⟩
  · rcases before other stamps attached with wasAttached | ⟨rfl, rfl⟩
    · rcases stepped.old_or_new isChild with
        ⟨oldChild, wasChild, stamp, samePhase, _⟩ | ⟨new, isNew, rfl⟩
      · rw [← samePhase]
        exact orderly.phases oldParent wasParent other stamps wasAttached oldChild wasChild
          (stamp ▸ inStamps)
      · obtain ⟨old, isOld, same⟩ := entry_of_child wasParent wasAttached inStamps
        exact absurd same (tooNew (List.mem_map_of_mem isNew) isOld)
    · rcases stepped.old_or_new isChild with ⟨oldChild, wasChild, stamp, _⟩ | ⟨new, isNew, rfl⟩
      · exact absurd stamp (tooNew inStamps wasChild)
      · obtain ⟨origin, source, role, samePhase⟩ := role_newLayers isNew
        rw [show new.entry.role = _ from role]
        exact samePhase
  · rw [Layer.children_entry, leaf_newLayers isNew, Option.map_none] at attached
    cases attached

end Step

/-- To learn the profiles is in order once no layer needs work any more. -/
theorem Orderly.learn {tree : LayerTree} (orderly : tree.Orderly none) (sound : tree.Sound none)
    (finished : tree.next? none = none) (profiles : Profiles) : tree.Orderly (some profiles) := by
  refine ⟨fun entry member => ?_, orderly.phases⟩
  obtain ⟨layer, inLayers, rfl⟩ := List.mem_map.mp member
  obtain ⟨isBound, isRead⟩ := done_of_next_none finished inLayers
  refine ⟨fun unknown => ?_, fun isFound => ?_, (orderly.entries _ member).early,
    fun attached => absurd (sound.early rfl _ member) attached, fun _ early pending => ?_⟩
  · cases unknown
  · rw [show layer.entry.role.isFound = false from isBound] at isFound
    cases isFound
  · exact isRead ((Layer.isActive_eq none layer).trans early.active) early.imports
      (Option.map_eq_none_iff.mp pending)

/-! ### The final tree -/

/-- How far the phases have come in a tree in which nothing is left to do. -/
structure Exhausted (known : Option Profiles) (tree : LayerTree) : Prop where
  bound : ∀ layer ∈ tree.layers, layer.role.isFound = false
  late : ∀ layer ∈ tree.layers, layer.isActive known = true → layer.imports ≠ [] →
    (layer.children .after).isSome = true
  early : ∀ layer ∈ tree.layers, layer.role.isRoot = false →
    ((layer.children .before).isSome = true ↔ layer.imports ≠ [] ∧ layer.isActive none = true ∧
      ∀ origin, layer.origin? = some origin → origin.phase = .before)
  inactive : ∀ layer ∈ tree.layers, layer.isActive known = false → ∀ phase,
    layer.children phase = none
  phases : ∀ layer ∈ tree.layers, ∀ phase found, layer.children phase = some found →
    ∀ child ∈ found, ∀ origin, child.origin? = some origin → origin.phase = phase
  /-- What the later phase attached has nothing below it that the earlier one attached. -/
  below : ∀ layer ∈ tree.layers, ∀ found, layer.children .after = some found → ∀ child ∈ found,
    ∀ inner ∈ child.order, inner.children .before = none

section Final

variable {known : Option Profiles} {tree : LayerTree} {layer : Layer}

theorem Orderly.phase_of_child (orderly : tree.Orderly known) (member : layer ∈ tree.layers)
    {phase : Phase} {found : List Layer} (attached : layer.children phase = some found)
    {child : Layer} (isChild : child ∈ found) : child.role.phase = phase :=
  orderly.phases layer.entry (entry_mem member) phase (found.map Layer.stamp)
    (congrArg (Option.map _) attached) child.entry
    (entry_mem (child_mem_layers member attached isChild)) (List.mem_map_of_mem isChild)

theorem Orderly.early_of_attached (orderly : tree.Orderly known) (member : layer ∈ tree.layers)
    (attached : layer.children .before ≠ none) : layer.role = .root ∨ layer.role.ReadEarly :=
  (orderly.entries _ (entry_mem member)).early fun none => attached (Option.map_eq_none_iff.mp none)

theorem Orderly.late_of_attached (orderly : tree.Orderly known) (member : layer ∈ tree.layers)
    (attached : layer.children .after ≠ none) : layer.isActive known = true :=
  (Layer.isActive_eq known layer).trans ((orderly.entries _ (entry_mem member)).late
    fun none => attached (Option.map_eq_none_iff.mp none))

/-- No layer from a layer of the later phase downwards has children of the earlier one. -/
theorem Orderly.no_early_below (orderly : tree.Orderly known) (member : layer ∈ tree.layers)
    (isLate : layer.role.phase = .after) :
    ∀ inner ∈ layer.order, inner.children .before = none := by
  induction layer using Layer.treeInduction with
  | step layer inductionHypothesis =>
    have noneEarly : layer.children .before = none := by
      by_contra attached
      rcases orderly.early_of_attached member attached with isRoot | early
      · rw [isRoot] at isLate
        cases isLate
      · rw [early.phase] at isLate
        cases isLate
    intro inner isInner
    rcases Layer.mem_order.mp isInner with inside | rfl
    · obtain ⟨phase, found, attached, child, isChild, inChild⟩ := Layer.mem_descendants.mp inside
      cases phase with
      | before =>
        rw [noneEarly] at attached
        cases attached
      | after =>
        exact inductionHypothesis .after found attached child isChild
          (child_mem_layers member attached isChild)
          (orderly.phase_of_child member attached isChild) inner inChild
    · exact noneEarly

/-- A tree in order in which nothing is left to do once profiles are known is exhausted. -/
theorem Orderly.exhausted {profiles : Profiles} (orderly : tree.Orderly (some profiles))
    (finished : tree.next? (some profiles) = none) : tree.Exhausted (some profiles) := by
  refine ⟨fun layer member => (done_of_next_none finished member).1,
    fun layer member active imports => ?_, fun layer member notRoot => ⟨fun attached => ?_, ?_⟩,
    fun layer member inactive phase => ?_,
    fun layer member phase found attached child isChild => ?_,
    fun layer member found attached child isChild => ?_⟩
  · exact Option.isSome_iff_ne_none.mpr ((done_of_next_none finished member).2 active imports)
  · rcases orderly.early_of_attached member (Option.isSome_iff_ne_none.mp attached) with
      isRoot | early
    · rw [isRoot] at notRoot
      cases notRoot
    · exact ⟨early.imports, (Layer.isActive_eq none layer).trans early.active,
        Role.phase_eq_before.mp early.phase⟩
  · rintro ⟨imports, active, phase⟩
    have early : layer.role.ReadEarly :=
      ⟨imports, (Layer.isActive_eq none layer).symm.trans active, Role.phase_eq_before.mpr phase⟩
    have attached :=
      (orderly.entries _ (entry_mem member)).finished (Option.some_ne_none profiles) early
    rw [Option.isSome_iff_ne_none]
    exact fun none => attached (congrArg (Option.map _) none)
  · by_contra attached
    have active : layer.isActive (some profiles) = true := by
      cases phase with
      | before =>
        rw [Layer.isActive_eq]
        rcases orderly.early_of_attached member attached with isRoot | early
        · rw [isRoot]
          rfl
        · exact Role.isActive_of_unknown early.active _
      | after => exact orderly.late_of_attached member attached
    rw [inactive] at active
    cases active
  · intro origin isOrigin
    rw [← orderly.phase_of_child member attached isChild]
    exact (Role.phase_of_origin isOrigin).symm
  · exact orderly.no_early_below (child_mem_layers member attached isChild)
      (orderly.phase_of_child member attached isChild)

end Final

end LayerTree

namespace LiveRepository

open LayerTree

theorem Comes.orderly {live : LiveRepository} {initial : List Source} {request : ProfileRequest}
    {known : Option Profiles} {tree : LayerTree} {expansions : List Expansion}
    (comes : live.Comes initial request known tree expansions) : tree.Orderly known := by
  induction comes with
  | start bound => exact orderly_start bound
  | step comes selected worked inductionHypothesis =>
    obtain ⟨gathered, stepped⟩ := stepped_of_work comes.sound selected worked
    exact ⟨inductionHypothesis.entries_step comes.sound selected stepped,
      inductionHypothesis.phases_step comes.sound stepped⟩
  | learn comes finished _ inductionHypothesis =>
    exact inductionHypothesis.learn comes.sound finished _

/-- A resolution that succeeds ends with a tree in which both phases have come to all layers that
they are for, and to no others, whatever the finders and readers answered. -/
theorem exhausted_of_resolve {live : LiveRepository} {initial : List Source}
    {request : ProfileRequest} {configuration : Configuration}
    (succeeded : (live.resolve initial request []).1 = .ok configuration) :
    configuration.tree.Exhausted configuration.known := by
  obtain ⟨⟨expansions, comes, _⟩, finished⟩ :=
    (leaves_resolve live initial request).of_eq_ok (Prod.ext succeeded rfl)
  exact comes.orderly.exhausted finished

/-- A table that is emptied after some calls, while bundles import each other and themselves. -/
def fadingTable : LiveRepository where
  finders := [fun calls =>
    Repository.tableFinder (if calls.length < 7 then Repository.cyclicTable else [])]
  readers := [fun _ => Repository.tableReader Repository.cyclicTable]
  policy := .ignore
  stepLimit := Repository.usualStepLimit

/-- What is found before the table is emptied is exhausted as well. -/
theorem exhausted_of_resolve_fadingTable :
    ∃ configuration,
      (fadingTable.resolve Repository.cyclicSources .unset []).1 = .ok configuration ∧
        configuration.tree.layers.map Layer.name = ["b1", "a1", "a2", "s", "root"] ∧
        configuration.tree.Exhausted configuration.known := by
  have names : (fadingTable.resolve Repository.cyclicSources .unset []).1.toOption.map
      (fun configuration => configuration.tree.layers.map Layer.name) =
        some ["b1", "a1", "a2", "s", "root"] := by
    decide +kernel
  have isOk : (fadingTable.resolve Repository.cyclicSources .unset []).1.isOk = true := by
    decide +kernel
  obtain ⟨configuration, succeeded⟩ := exists_ok_of_isOk isOk
  rw [succeeded] at names
  exact ⟨configuration, succeeded, Option.some.inj names, exhausted_of_resolve succeeded⟩

end LiveRepository

end LayeredConfig
