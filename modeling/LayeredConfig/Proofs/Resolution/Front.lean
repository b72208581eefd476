/-
This file says what stands in front of the strongest given source.

The given layers are the only children that the root ever has, for the root declares no imports. A
layer stands behind all that is below it, so nothing comes before the strongest given layer but its
own descendants. These are there only if the layer declares imports: those of a given layer are the
ones that its source declares, and no layer without imports is given children.
-/

import LayeredConfig.Proofs.Resolution.Reach

namespace LayeredConfig

/-- A given layer in this role has no imports that its source does not declare. -/
def Role.Silent (role : Role) : Prop :=
  ∀ source imports, role = .initial source imports →
    source.view.declares PropertyName.imports = false → imports = []

theorem Role.silent_opened {role : Role} (silent : role.Silent) : role.opened.Silent := by
  cases role with
  | bound => exact nofun
  | _ => exact silent

/-- A layer that has a source and was not found is given. -/
theorem Role.initial_of_source {role : Role} {source : Source} (noOrigin : role.origin? = none)
    (holds : role.source? = some source) : ∃ imports, role = .initial source imports := by
  cases role with
  | root => cases holds
  | initial => exact ⟨_, congrArg (Role.initial · _) (Option.some.inj holds)⟩
  | _ => cases noOrigin

/-- What holds of an entry throughout, if the given layers have the given stamps. -/
structure Entry.Fed (given : List Nat) (entry : Entry) : Prop where
  root : entry.role = .root →
    entry.children .before = some given ∧ entry.children .after = none
  others : entry.role ≠ .root → ∀ phase, entry.children phase ≠ none → entry.role.imports ≠ []
  silent : entry.role.Silent

/-- A layer does not import what its source does not declare. -/
theorem Lookup.getImports_of_silent {tree : LayerTree} {layer : Layer} {known : Option Profiles}
    {source : Source} (holds : layer.source? = some source)
    (silent : source.view.declares PropertyName.imports = false) :
    (ofLayer tree layer known).getImports = .ok [] := by
  obtain ⟨noScalar, noElements⟩ := Bool.or_eq_false_iff.mp silent
  have undeclared : (ofLayer tree layer known).getList PropertyName.imports = .ok none := by
    show Lookup.listIn _ _ [layer] = _
    rw [View.contains, Option.isSome_eq_false_iff, Option.isNone_iff_eq_none] at noScalar
    rw [listIn, holds]
    dsimp only
    rw [noScalar, noElements]
    rfl
  rw [getImports, undeclared]
  rfl

namespace LayerTree

/-! ### The start -/

theorem silent_bindLayers {tree next : LayerTree} {pending : List Layer} (sound : tree.Sound none)
    (bindable : ∀ layer ∈ pending, tree.Bindable layer) (distinct : (pending.map Layer.stamp).Nodup)
    (silent : ∀ entry ∈ tree.entries, entry.role.Silent)
    (bound : tree.bindLayers pending = .ok next) : ∀ entry ∈ next.entries, entry.role.Silent := by
  induction pending generalizing tree with
  | nil =>
    cases bound
    exact silent
  | cons layer rest inductionHypothesis =>
    obtain ⟨middle, first, others⟩ := bind_eq_ok.mp bound
    obtain ⟨notInRest, restDistinct⟩ := List.nodup_cons.mp distinct
    have isBindable := bindable layer List.mem_cons_self
    obtain ⟨middleSound, _, stays⟩ := bindLayer_initial sound isBindable first
    refine inductionHypothesis middleSound
      (fun other member => stays other (bindable other (List.mem_cons_of_mem _ member))
        fun same => notInRest (same ▸ List.mem_map_of_mem member)) restDistinct ?_ others
    obtain ⟨source, imports, imported, role, declared, rfl, edited⟩ :=
      edited_bindLayer sound isBindable first
    intro entry member
    rcases edited.mem_old member with isChanged | isOld
    · rw [List.mem_singleton.mp isChanged]
      intro other otherImports isInitial undeclared
      obtain ⟨rfl, rfl⟩ := Role.initial.inj isInitial
      have holds : layer.source? = some source := by rw [Layer.source?, role]; rfl
      rw [Lookup.getImports_of_silent holds undeclared] at declared
      exact (Except.ok.inj declared).symm
    · exact silent entry isOld

theorem silent_start {sources : List Source} {tree : LayerTree}
    (bound : ofBoundSources sources = .ok tree) : ∀ entry ∈ tree.entries, entry.role.Silent := by
  rw [ofBoundSources, filter_layers_ofSources] at bound
  refine silent_bindLayers (sound_ofSources sources) (fun _ => bindable_initialLayers)
    (distinct_initialLayers sources) ?_ bound
  intro entry member source imports isInitial _
  obtain ⟨layer, inLayers, rfl⟩ := List.mem_map.mp member
  rw [layers_ofSources, List.mem_append, List.mem_singleton] at inLayers
  rcases inLayers with isGiven | rfl
  · obtain ⟨_, _, role⟩ := role_initialLayers isGiven
    exact (Role.initial.inj (role.symm.trans isInitial)).2.symm
  · cases isInitial

/-- The children of the root are at first the given layers, the strongest last. -/
theorem children_root_start {sources : List Source} {tree : LayerTree}
    (bound : ofBoundSources sources = .ok tree) {entry : Entry} (member : entry ∈ tree.entries)
    (isRoot : entry.role = .root) :
    entry.children .before = some (List.range' 1 sources.length).reverse := by
  have inBlank := List.mem_map_of_mem (f := Entry.blank) member
  rw [(start_of_ofBoundSources bound).2] at inBlank
  obtain ⟨first, isFirst, same⟩ := List.mem_map.mp inBlank
  obtain ⟨layer, inLayers, rfl⟩ := List.mem_map.mp isFirst
  obtain ⟨_, sameRole, sameChildren⟩ := Entry.mk.inj same
  rw [layers_ofSources, List.mem_append, List.mem_singleton] at inLayers
  rcases inLayers with isInitial | rfl
  · obtain ⟨source, _, role⟩ := role_initialLayers isInitial
    rw [show layer.entry.role = _ from role, isRoot] at sameRole
    cases sameRole
  · rw [← sameChildren]
    show some ((initialLayers sources).reverse.map Layer.stamp) = _
    rw [List.map_reverse, initialLayers, stamps_freshLayers, List.length_map]

theorem fed_start {sources : List Source} {tree : LayerTree}
    (bound : ofBoundSources sources = .ok tree) :
    ∀ entry ∈ tree.entries, entry.Fed (List.range' 1 sources.length).reverse := by
  intro entry member
  refine ⟨fun isRoot => ⟨children_root_start bound member isRoot, ?_⟩,
    fun notRoot phase attached => ?_, silent_start bound entry member⟩
  · rcases entry_start bound member with ⟨leaf, _⟩ | ⟨noLater, _⟩
    · exact leaf .after
    · exact noLater
  · rcases entry_start bound member with ⟨leaf, _⟩ | ⟨_, isRoot⟩
    · exact absurd (leaf phase) attached
    · exact absurd isRoot notRoot

/-! ### Every step -/

theorem Fed.step {known : Option Profiles} {tree next : LayerTree} {layer : Layer}
    {gathered : List (Resource × Bundle)} {given : List Nat} (sound : tree.Sound known)
    (fed : ∀ entry ∈ tree.entries, entry.Fed given) (selected : tree.next? known = some layer)
    (stepped : Stepped (Phase.ofKnown known) tree next layer gathered) :
    ∀ entry ∈ next.entries, entry.Fed given := by
  intro entry member
  cases stepped.entryAfter member with
  | kept isOld => exact fed _ isOld
  | bound role isLayer =>
    have leaf := sound.tidy _ isLayer (by show layer.role.isClosed = true; rw [role]; rfl)
    exact ⟨nofun, fun _ phase attached => absurd (leaf phase) attached, nofun⟩
  | attached ready _ isLayer =>
    obtain ⟨_, imports, _⟩ := pending_of_next selected ready
    have isOpened := Role.imports_opened layer.role
    refine ⟨fun isRoot => ?_, fun _ _ _ => isOpened ▸ imports,
      Role.silent_opened (fed _ isLayer).silent⟩
    -- The root has no imports, so no step reads them.
    rw [show layer.role.opened = .root from isRoot] at isOpened
    exact absurd isOpened.symm imports
  | fresh isNew =>
    obtain ⟨origin, source, role, _⟩ := role_newLayers isNew
    refine ⟨fun isRoot => ?_, fun _ phase attached => ?_, fun _ _ isInitial => ?_⟩
    · cases role.symm.trans isRoot
    · exact absurd (congrArg (Option.map _) (leaf_newLayers isNew phase)) attached
    · cases role.symm.trans isInitial

end LayerTree

/-! ### The strongest given layer -/

namespace Configuration

open LayerTree

variable {repository : Repository} {initial : List Source} {request : ProfileRequest}
  {known : Option Profiles} {tree : LayerTree} {loads : List (Resource × Bundle)}

theorem Reaches.fed (reached : Reaches repository initial request known tree loads) :
    ∀ entry ∈ tree.entries, entry.Fed (List.range' 1 initial.length).reverse := by
  induction reached with
  | start bound => exact fed_start bound
  | step reached selected worked inductionHypothesis =>
    exact Fed.step reached.sound inductionHypothesis selected (reached.stepped selected worked)
  | learn _ _ _ inductionHypothesis => exact inductionHypothesis

theorem Reaches.role_root (reached : Reaches repository initial request known tree loads) :
    tree.root.role = .root := by
  induction reached with
  | start bound => exact role_root_start bound
  | step reached selected worked inductionHypothesis =>
    exact (reached.stepped selected worked).role_root inductionHypothesis
  | learn _ _ _ inductionHypothesis => exact inductionHypothesis

/-- The given layers keep their marks. -/
theorem Reaches.keeps_given (reached : Reaches repository initial request known tree loads)
    {layer : Layer} (isGiven : layer ∈ initialLayers initial) : layer.mark ∈ tree.marks := by
  induction reached with
  | start bound =>
    rw [marks_start bound]
    exact List.mem_append_left _ (List.mem_map_of_mem isGiven)
  | step reached selected worked inductionHypothesis =>
    exact (reached.stepped selected worked).mem_marks.mpr (.inl inductionHypothesis)
  | learn _ _ _ inductionHypothesis => exact inductionHypothesis

/-- Nothing stands in front of the strongest given layer but what is below it, and nothing is below
it if its source declares no imports. -/
theorem Reaches.front {source : Source} {rest : List Source}
    (reached : Reaches repository (source :: rest) request known tree loads) :
    ∃ layer back, tree.layers = layer.descendants ++ [layer] ++ back ∧
      (∃ imports, layer.role = .initial source imports) ∧
      (source.view.declares PropertyName.imports = false → layer.descendants = []) := by
  have isRoot : tree.root ∈ tree.layers := layers_eq tree ▸ Layer.self_mem_order tree.root
  obtain ⟨before, after⟩ := (reached.fed _ (entry_mem isRoot)).root reached.role_root
  obtain ⟨found, attached, stamps⟩ := Option.map_eq_some_iff.mp before
  rw [List.length_cons, List.range'_succ, List.reverse_cons] at stamps
  obtain ⟨others, last, rfl, _, isLast⟩ := List.map_eq_append_iff.mp stamps
  obtain ⟨layer, rfl, isFirst⟩ := List.map_eq_singleton_iff.mp isLast
  have member : layer ∈ tree.layers := child_mem_layers isRoot attached
    (List.mem_append_right _ List.mem_cons_self)
  -- The mark of the first stamp is that of the strongest given source.
  have isInitial : ∃ imports, layer.role = .initial source imports := by
    obtain ⟨entry, isEntry, mark⟩ := List.mem_map.mp (reached.keeps_given List.mem_cons_self)
    obtain ⟨isGiven, noOrigin, holds⟩ := Mark.mk.inj mark
    obtain rfl : layer.entry = entry :=
      List.inj_on_of_nodup_map reached.sound.distinct (entry_mem member) isEntry
        (isFirst.trans isGiven.symm)
    exact Role.initial_of_source noOrigin holds
  refine ⟨layer, Layer.orderAll others ++ [tree.root], ?_, isInitial, fun silent => ?_⟩
  · rw [layers_eq, Layer.order_eq, Layer.descendants, attached,
      show tree.root.children .after = none from Option.map_eq_none_iff.mp after]
    show [] ++ Layer.orderAll (others ++ [layer]) ++ [tree.root] = _
    rw [List.nil_append, Layer.orderAll_append, Layer.orderAll, Layer.orderAll, List.nil_append,
      Layer.order_eq, List.append_assoc]
  · obtain ⟨imports, role⟩ := isInitial
    have fed := reached.fed _ (entry_mem member)
    obtain rfl : imports = [] := fed.silent source imports role silent
    refine Layer.descendants_of_leaf fun phase => ?_
    by_contra isRead
    refine fed.others ?_ phase (fun leaf => isRead (Option.map_eq_none_iff.mp leaf)) ?_
    · rw [show layer.entry.role = _ from role]
      intro isRoot
      cases isRoot
    · rw [show layer.entry.role = _ from role]
      rfl

end Configuration

end LayeredConfig
