/-
This file says what tree a resolution starts with.

The given sources hang under the root, the strongest first. Their imports are bound one layer after
the other, in trees that change meanwhile; but a layer without children is rebuilt only when it is
the one that is bound, so each layer is found as it was at first. Up to the imports, the tree stays
what it was.
-/

import LayeredConfig.Proofs.Growth.Mark

namespace LayeredConfig

/-- The role with its imports left out if it is that of an initial layer. -/
def Role.blank : Role → Role
  | initial source _ => initial source []
  | other => other

def Entry.blank (entry : Entry) : Entry :=
  entry.withRole entry.role.blank

@[simp] theorem Role.source_blank (role : Role) : role.blank.source? = role.source? := by
  cases role <;> rfl

@[simp] theorem Role.origin_blank (role : Role) : role.blank.origin? = role.origin? := by
  cases role <;> rfl

namespace LayerTree

/-! ### The given sources -/

/-- The initial layers of a resolution, before any is bound. -/
def initialLayers (sources : List Source) : List Layer :=
  freshLayers 1 (sources.map fun source => .initial source [])

theorem leaf_initialLayers {sources : List Source} {layer : Layer}
    (member : layer ∈ initialLayers sources) (phase : Phase) : layer.children phase = none :=
  leaf_freshLayers member phase

theorem layers_ofSources (sources : List Source) :
    (ofSources sources).layers = initialLayers sources ++ [(ofSources sources).root] := by
  rw [layers_eq, Layer.order_eq]
  show [] ++ Layer.orderAll (initialLayers sources).reverse ++ _ = _
  rw [Layer.orderAll_of_leaves fun layer member => leaf_initialLayers (List.mem_reverse.mp member),
    List.reverse_reverse, List.nil_append]

theorem role_initialLayers {sources : List Source} {layer : Layer}
    (member : layer ∈ initialLayers sources) :
    ∃ source ∈ sources, layer.role = .initial source [] := by
  have inRoles := List.mem_map_of_mem (f := Layer.role) member
  rw [initialLayers, roles_freshLayers] at inRoles
  obtain ⟨source, isSource, role⟩ := List.mem_map.mp inRoles
  exact ⟨source, isSource, role.symm⟩

/-- The initial layers hold the given sources, in their order. -/
theorem sources_initialLayers (sources : List Source) :
    (initialLayers sources).filterMap Layer.source? = sources := by
  show (initialLayers sources).filterMap (Role.source? ∘ Layer.role) = sources
  rw [← List.filterMap_map, initialLayers, roles_freshLayers, List.filterMap_map]
  exact List.filterMap_some

theorem filter_layers_ofSources (sources : List Source) :
    ((ofSources sources).layers.filter fun layer => !layer.role.isRoot) =
      initialLayers sources := by
  rw [layers_ofSources, List.filter_append, List.filter_eq_self.mpr, List.filter_eq_nil_iff.mpr,
    List.append_nil]
  · intro layer member
    rw [List.mem_singleton.mp member]
    exact Bool.false_ne_true
  · intro layer member
    obtain ⟨source, _, role⟩ := role_initialLayers member
    rw [role]
    rfl

theorem sound_ofSources (sources : List Source) : (ofSources sources).Sound none := by
  have stamps : (ofSources sources).entries.map Entry.stamp =
      List.range' 1 sources.length ++ [0] := by
    rw [entries, List.map_map, layers_ofSources, List.map_append]
    show (initialLayers sources).map Layer.stamp ++ [0] = _
    rw [initialLayers, stamps_freshLayers, List.length_map]
  refine ⟨?_, ?_, ?_, ?_⟩
  · rw [stamps, List.nodup_append]
    refine ⟨List.nodup_range', List.nodup_singleton 0, fun first inRange second isZero => ?_⟩
    rw [List.mem_range'_1] at inRange
    rw [List.mem_singleton] at isZero
    omega
  · intro entry member
    have inStamps := List.mem_map_of_mem (f := Entry.stamp) member
    rw [stamps, List.mem_append, List.mem_range'_1, List.mem_singleton] at inStamps
    show entry.stamp < sources.length + 1
    omega
  · intro entry member
    obtain ⟨layer, inLayers, rfl⟩ := List.mem_map.mp member
    rw [layers_ofSources, List.mem_append, List.mem_singleton] at inLayers
    rcases inLayers with isInitial | rfl
    · exact Layer.tidy_entry.mpr fun _ => leaf_initialLayers isInitial
    · intro closed
      cases closed
  · intro _ entry member
    obtain ⟨layer, inLayers, rfl⟩ := List.mem_map.mp member
    rw [layers_ofSources, List.mem_append, List.mem_singleton] at inLayers
    rcases inLayers with isInitial | rfl
    · rw [Layer.children_entry, leaf_initialLayers isInitial, Option.map_none]
    · rfl

/-! ### Binding them -/

/-- The layers that can still be bound as they are: initial ones of the tree, without children. -/
def Bindable (tree : LayerTree) (layer : Layer) : Prop :=
  layer ∈ tree.layers ∧ (∀ phase, layer.children phase = none) ∧
    ∃ source imports, layer.role = .initial source imports

/-- To bind an initial layer is to change its imports to those that its source declares. -/
theorem edited_bindLayer {tree next : LayerTree} {layer : Layer} (sound : tree.Sound none)
    (bindable : tree.Bindable layer) (bound : tree.bindLayer none layer = .ok next) :
    ∃ source imports imported, layer.role = .initial source imports ∧
      (Lookup.ofLayer tree layer none).getImports = .ok imported ∧
      next = tree.replace layer (layer.withRole (.initial source imported)) ∧
      Edited [] [] layer.entry (layer.entry.withRole (.initial source imported)) tree.entries
        next.entries := by
  obtain ⟨member, leaf, source, imports, role⟩ := bindable
  obtain ⟨replacement, isBound, replaced⟩ := bind_eq_ok.mp bound
  obtain rfl := Except.ok.inj replaced
  rw [Layer.bind, role] at isBound
  obtain ⟨imported, declared, isReplacement⟩ := bind_eq_ok.mp isBound
  obtain rfl := Except.ok.inj isReplacement
  have sameStamp := Layer.stamp_withRole (.initial source imported) layer
  have edited := edited_replace sound member sameStamp [] (Layer.descendants_withRole _ _)
  rw [Layer.descendants_of_leaf leaf, Layer.entry_withRole] at edited
  exact ⟨source, imports, imported, role, declared, rfl, edited⟩

/-- The layers that are not bound yet stay as they are. -/
theorem Bindable.replace {tree : LayerTree} {layer other replacement : Layer}
    (sound : tree.Sound none) (bindable : tree.Bindable layer) (pending : tree.Bindable other)
    (different : other.stamp ≠ layer.stamp) : (tree.replace layer replacement).Bindable other := by
  obtain ⟨otherMember, otherLeaf, otherRole⟩ := pending
  refine ⟨?_, otherLeaf, otherRole⟩
  obtain ⟨front, back, rebuilt, old, new, isRebuilt⟩ :=
    layers_replace (distinct_iff.mp sound.distinct) (fun _ inTree => sound.tidy_layer inTree)
      bindable.1 replacement
  rw [old, Layer.order_of_leaf bindable.2.1] at otherMember
  rw [new]
  simp only [List.mem_append, List.mem_singleton] at otherMember ⊢
  rcases otherMember with (inFront | rfl) | inBack
  · exact Or.inl (Or.inl inFront)
  · exact absurd rfl different
  · exact Or.inr (Layer.mem_rebuilt_of_leaf isRebuilt otherLeaf inBack)

/-- To bind an initial layer keeps the tree sound, and the same up to imports. -/
theorem bindLayer_initial {tree next : LayerTree} {layer : Layer} (sound : tree.Sound none)
    (bindable : tree.Bindable layer) (bound : tree.bindLayer none layer = .ok next) :
    next.Sound none ∧ next.entries.map Entry.blank = tree.entries.map Entry.blank ∧
      ∀ other, tree.Bindable other → other.stamp ≠ layer.stamp → next.Bindable other := by
  obtain ⟨source, imports, imported, role, _, rfl, edited⟩ := edited_bindLayer sound bindable bound
  refine ⟨?_, ?_, fun other pending different => bindable.replace sound pending different⟩
  · refine sound.of_edited edited rfl (Nat.le_refl _) List.nodup_nil ?_ ?_ ?_
    · intro entry inBlock
      cases inBlock
    · intro entry isChanged
      rw [List.mem_singleton.mp isChanged]
      intro closed
      cases closed
    · intro _ entry isChanged
      rw [List.mem_singleton.mp isChanged]
      exact sound.early rfl layer.entry (entry_mem bindable.1)
  · have sameBlank :
        (layer.entry.withRole (.initial source imported)).blank = layer.entry.blank := by
      simp only [Entry.blank, Entry.withRole, Layer.entry, role, Role.blank]
    exact edited.map_eq sameBlank

theorem bindLayers_initial {tree next : LayerTree} {pending : List Layer} (sound : tree.Sound none)
    (bindable : ∀ layer ∈ pending, tree.Bindable layer) (distinct : (pending.map Layer.stamp).Nodup)
    (bound : tree.bindLayers pending = .ok next) :
    next.Sound none ∧ next.entries.map Entry.blank = tree.entries.map Entry.blank := by
  induction pending generalizing tree with
  | nil =>
    cases bound
    exact ⟨sound, rfl⟩
  | cons layer rest inductionHypothesis =>
    obtain ⟨middle, first, others⟩ := bind_eq_ok.mp bound
    obtain ⟨notInRest, restDistinct⟩ := List.nodup_cons.mp distinct
    obtain ⟨middleSound, middleBlank, stays⟩ :=
      bindLayer_initial sound (bindable layer List.mem_cons_self) first
    obtain ⟨nextSound, nextBlank⟩ := inductionHypothesis middleSound
      (fun other member => stays other (bindable other (List.mem_cons_of_mem _ member))
        fun same => notInRest (same ▸ List.mem_map_of_mem member)) restDistinct others
    exact ⟨nextSound, nextBlank.trans middleBlank⟩

theorem bindable_initialLayers {sources : List Source} {layer : Layer}
    (member : layer ∈ initialLayers sources) : (ofSources sources).Bindable layer := by
  obtain ⟨source, _, role⟩ := role_initialLayers member
  refine ⟨?_, leaf_initialLayers member, source, [], role⟩
  rw [layers_ofSources]
  exact List.mem_append_left _ member

theorem distinct_initialLayers (sources : List Source) :
    ((initialLayers sources).map Layer.stamp).Nodup := by
  rw [initialLayers, stamps_freshLayers]
  exact List.nodup_range'

/-- A resolution starts with a sound tree, in which only the imports of the initial layers are new.
-/
theorem start_of_ofBoundSources {sources : List Source} {tree : LayerTree}
    (bound : ofBoundSources sources = .ok tree) :
    tree.Sound none ∧
      tree.entries.map Entry.blank = (ofSources sources).entries.map Entry.blank := by
  rw [ofBoundSources, filter_layers_ofSources] at bound
  exact bindLayers_initial (sound_ofSources sources) (fun _ => bindable_initialLayers)
    (distinct_initialLayers sources) bound

/-! ### What the tree holds at first -/

theorem marks_ofSources (sources : List Source) :
    (ofSources sources).marks = (initialLayers sources).map Layer.mark ++ [⟨0, none, none⟩] := by
  rw [marks_eq, layers_ofSources, List.map_append]
  rfl

/-- The marks are at first those of the given sources. -/
theorem marks_start {sources : List Source} {tree : LayerTree}
    (bound : ofBoundSources sources = .ok tree) :
    tree.marks = (initialLayers sources).map Layer.mark ++ [⟨0, none, none⟩] := by
  have blank := congrArg (List.map Entry.mark) (start_of_ofBoundSources bound).2
  have ignored : Entry.mark ∘ Entry.blank = Entry.mark := by
    funext entry
    simp only [Function.comp_apply, Entry.mark, Entry.blank, Entry.withRole, Role.origin_blank,
      Role.source_blank]
  rw [List.map_map, List.map_map, ignored] at blank
  exact blank.trans (marks_ofSources sources)

/-- At first there are the root and initial layers, and only the root has children. -/
theorem entry_start {sources : List Source} {tree : LayerTree}
    (bound : ofBoundSources sources = .ok tree) {entry : Entry} (member : entry ∈ tree.entries) :
    (∀ phase, entry.children phase = none) ∧
        (∃ source imports, entry.role = .initial source imports) ∨
      entry.children .after = none ∧ entry.role = .root := by
  have inBlank := List.mem_map_of_mem (f := Entry.blank) member
  rw [(start_of_ofBoundSources bound).2] at inBlank
  obtain ⟨first, isFirst, same⟩ := List.mem_map.mp inBlank
  obtain ⟨layer, inLayers, rfl⟩ := List.mem_map.mp isFirst
  obtain ⟨_, sameRole, sameChildren⟩ := Entry.mk.inj same
  rw [layers_ofSources, List.mem_append, List.mem_singleton] at inLayers
  rw [← sameChildren]
  rcases inLayers with isInitial | rfl
  · refine Or.inl ⟨fun phase => ?_, ?_⟩
    · rw [Layer.children_entry, leaf_initialLayers isInitial, Option.map_none]
    · obtain ⟨source, _, role⟩ := role_initialLayers isInitial
      rw [show layer.entry.role = _ from role] at sameRole
      cases isRole : entry.role with
      | initial source imports => exact ⟨source, imports, rfl⟩
      | _ => rw [isRole] at sameRole; cases sameRole
  · refine Or.inr ⟨rfl, ?_⟩
    cases isRole : entry.role with
    | root => rfl
    | _ => rw [isRole] at sameRole; cases sameRole

theorem role_root_start {sources : List Source} {tree : LayerTree}
    (bound : ofBoundSources sources = .ok tree) : tree.root.role = .root := by
  have last := congrArg List.getLast? (start_of_ofBoundSources bound).2
  rw [List.getLast?_map, List.getLast?_map, getLast?_entries, getLast?_entries] at last
  have sameRole : tree.root.role.blank = .root := congrArg Entry.role (Option.some.inj last)
  cases isRole : tree.root.role with
  | root => rfl
  | _ => rw [isRole] at sameRole; cases sameRole

/-- Nothing is loaded at first. -/
theorem origin_start {sources : List Source} {tree : LayerTree}
    (bound : ofBoundSources sources = .ok tree) {mark : Mark} (member : mark ∈ tree.marks) :
    mark.origin? = none := by
  rw [marks_start bound, List.mem_append, List.mem_singleton] at member
  rcases member with isInitial | rfl
  · obtain ⟨layer, inLayers, rfl⟩ := List.mem_map.mp isInitial
    obtain ⟨source, _, role⟩ := role_initialLayers inLayers
    show layer.role.origin? = none
    rw [role]
    rfl
  · rfl

/-- The sources are at first the given ones, in their order. -/
theorem sources_start {sources : List Source} {tree : LayerTree}
    (bound : ofBoundSources sources = .ok tree) : tree.marks.filterMap Mark.source? = sources := by
  rw [marks_start bound, List.filterMap_append, List.filterMap_map]
  exact (List.append_nil _).trans (sources_initialLayers sources)

end LayerTree

end LayeredConfig
