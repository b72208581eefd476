/-
This file says what one step of growing does to a tree.

A step binds a layer or attaches layers to one. In the entries of the tree, taken in the order of
strength, binding changes the role of one entry. Attaching opens one entry and puts the new ones, as
one block, in front of the segment that the layer owns. Nothing else changes, and the invariant that
this rests on is kept: stamps are distinct, closed layers have no children, and the phase that needs
profiles has come to no layer while profiles are unknown.
-/

import LayeredConfig.Layer.Expansion
import LayeredConfig.Proofs.Import.Gathering
import LayeredConfig.Proofs.Layer.Replacement

namespace LayeredConfig

namespace Entry

/-- The entry of a closed layer has no children. -/
def Tidy (entry : Entry) : Prop :=
  entry.role.isClosed = true → ∀ phase, entry.children phase = none

def withRole (role : Role) (entry : Entry) : Entry :=
  { entry with role }

/-- The entry of a layer to which a phase attached children. -/
def attach (phase : Phase) (stamps : List Nat) (entry : Entry) : Entry :=
  ⟨entry.stamp, entry.role.opened,
    fun other => if other = phase then some stamps else entry.children other⟩

theorem children_attach (phase : Phase) (stamps : List Nat) (entry : Entry) (other : Phase) :
    (entry.attach phase stamps).children other =
      if other = phase then some stamps else entry.children other := rfl

end Entry

namespace Layer

theorem tidy_entry {layer : Layer} : layer.entry.Tidy ↔ layer.Tidy := by
  simp only [Entry.Tidy, Tidy, entry, Option.map_eq_none_iff]

theorem entry_withRole (role : Role) (layer : Layer) :
    (layer.withRole role).entry = layer.entry.withRole role := by
  simp only [entry, Entry.withRole, stamp_withRole, role_withRole, children_withRole]

theorem entry_attach {layer : Layer} (tidy : layer.Tidy) (bound : layer.role.isFound = false)
    (phase : Phase) (found : List Layer) :
    (layer.withChildren phase found).entry = layer.entry.attach phase (found.map stamp) := by
  rw [entry, Entry.attach, Entry.mk.injEq]
  refine ⟨stamp_withChildren _ _ _, role_withChildren _ _ _, ?_⟩
  funext other
  rw [children_withChildren tidy bound]
  by_cases same : other = phase
  · rw [if_pos same, if_pos same, Option.map_some]
  · rw [if_neg same, if_neg same]
    rfl

/-! ### Layers without children -/

theorem descendants_of_leaf {layer : Layer} (leaf : ∀ phase, layer.children phase = none) :
    layer.descendants = [] := by
  rw [descendants, leaf, leaf]
  rfl

theorem order_of_leaf {layer : Layer} (leaf : ∀ phase, layer.children phase = none) :
    layer.order = [layer] := by
  rw [order_eq, descendants_of_leaf leaf, List.nil_append]

theorem orderAll_of_leaves {found : List Layer}
    (leaves : ∀ layer ∈ found, ∀ phase, layer.children phase = none) :
    orderAll found = found.reverse := by
  induction found with
  | nil => rfl
  | cons layer rest inductionHypothesis =>
    rw [orderAll,
      inductionHypothesis fun other member => leaves other (List.mem_cons_of_mem _ member),
      order_of_leaf (leaves layer List.mem_cons_self), List.reverse_cons]

end Layer

/-! ### Edits -/

/-- One list of entries is the other with one entry changed, and with a block put in front of it and
of the entries inside its segment. -/
inductive Edited (inside block : List Entry) (before after : Entry) :
    List Entry → List Entry → Prop where
  | intro (front back : List Entry) :
      Edited inside block before after (front ++ inside ++ before :: back)
        (front ++ block ++ inside ++ after :: back)

namespace Edited

variable {inside block old new : List Entry} {before after : Entry}

theorem before_mem (edited : Edited inside block before after old new) : before ∈ old := by
  cases edited
  exact List.mem_append_right _ List.mem_cons_self

theorem after_mem (edited : Edited inside block before after old new) : after ∈ new := by
  cases edited
  exact List.mem_append_right _ List.mem_cons_self

/-- Every entry stays, but for the one that is changed. -/
theorem mem_new (edited : Edited inside block before after old new) {entry : Entry}
    (member : entry ∈ old) : entry = before ∨ entry ∈ new := by
  cases edited
  simp only [List.mem_append, List.mem_cons] at member ⊢
  tauto

theorem mem_old (edited : Edited inside block before after old new) {entry : Entry}
    (member : entry ∈ new) : entry ∈ after :: block ∨ entry ∈ old := by
  cases edited
  simp only [List.mem_append, List.mem_cons] at member ⊢
  tauto

theorem perm_stamps (edited : Edited inside block before after old new)
    (sameStamp : after.stamp = before.stamp) :
    (new.map Entry.stamp).Perm (block.map Entry.stamp ++ old.map Entry.stamp) := by
  cases edited
  simp only [List.map_append, List.map_cons, sameStamp, List.append_assoc]
  exact List.perm_append_comm_assoc _ _ _

/-- What is read off the entries is the same if it is for the one that is changed. -/
theorem map_eq {Value : Type} {read : Entry → Value}
    (edited : Edited [] [] before after old new) (same : read after = read before) :
    new.map read = old.map read := by
  cases edited
  simp only [List.map_append, List.map_cons, List.append_nil, same]

/-- The entry that comes last stays the last, changed or not. -/
theorem getLast? (edited : Edited inside block before after old new) :
    old.getLast? = some before ∧ new.getLast? = some after ∨ new.getLast? = old.getLast? := by
  cases edited with
  | intro front back =>
    cases back with
    | nil => exact Or.inl ⟨List.getLast?_concat, List.getLast?_concat⟩
    | cons entry rest =>
      refine Or.inr ?_
      rw [List.getLast?_append_cons, List.getLast?_append_cons, List.getLast?_cons_cons,
        List.getLast?_cons_cons]

end Edited

namespace LayerTree

/-! ### Fresh layers -/

theorem stamps_freshLayers (firstStamp : Nat) (roles : List Role) :
    (freshLayers firstStamp roles).map Layer.stamp = List.range' firstStamp roles.length := by
  rw [freshLayers, List.map_map]
  show roles.zipIdx.map ((firstStamp + ·) ∘ Prod.snd) = _
  rw [← List.map_map, List.zipIdx_map_snd, List.map_add_range', Nat.add_zero]

theorem roles_freshLayers (firstStamp : Nat) (roles : List Role) :
    (freshLayers firstStamp roles).map Layer.role = roles := by
  rw [freshLayers, List.map_map]
  exact List.zipIdx_map_fst 0 roles

theorem leaf_freshLayers {firstStamp : Nat} {roles : List Role} {layer : Layer}
    (member : layer ∈ freshLayers firstStamp roles) (phase : Phase) :
    layer.children phase = none := by
  obtain ⟨_, _, rfl⟩ := List.mem_map.mp member
  cases phase <;> rfl

theorem length_freshLayers (firstStamp : Nat) (roles : List Role) :
    (freshLayers firstStamp roles).length = roles.length := by
  rw [freshLayers, List.length_map, List.length_zipIdx]

/-- Seen from the strongest on, the bundle that was read last comes first, and the sources of a
bundle come in their order. -/
theorem reverse_childrenOf (phase : Phase) (gathered : List (Resource × Bundle)) :
    (childrenOf phase gathered).reverse = gathered.reverse.flatMap fun load =>
      load.2.sources.map fun source => (⟨load.1, load.2.profileSpecific, phase⟩, source) := by
  rw [childrenOf, List.reverse_flatMap]
  congr 1
  funext load
  simp only [Function.comp_apply, ← List.map_reverse, List.reverse_reverse]

/-- The layers for what a phase gathered, the strongest last. -/
def newLayers (tree : LayerTree) (phase : Phase) (gathered : List (Resource × Bundle)) :
    List Layer :=
  freshLayers tree.nextStamp
    ((childrenOf phase gathered).map fun (origin, source) => .found origin source)

section NewLayers

variable {tree : LayerTree} {phase : Phase} {gathered : List (Resource × Bundle)}

theorem length_newLayers :
    (tree.newLayers phase gathered).length = (childrenOf phase gathered).length := by
  rw [newLayers, length_freshLayers, List.length_map]

theorem stamps_newLayers :
    (tree.newLayers phase gathered).map Layer.stamp =
      List.range' tree.nextStamp (tree.newLayers phase gathered).length := by
  rw [newLayers, stamps_freshLayers, length_freshLayers]

theorem roles_newLayers :
    (tree.newLayers phase gathered).map Layer.role =
      (childrenOf phase gathered).map fun (origin, source) => .found origin source :=
  roles_freshLayers _ _

/-- New layers are found in the phase that attaches them. -/
theorem role_newLayers {layer : Layer} (member : layer ∈ tree.newLayers phase gathered) :
    ∃ origin source, layer.role = .found origin source ∧ origin.phase = phase := by
  have inRoles := List.mem_map_of_mem (f := Layer.role) member
  rw [roles_newLayers] at inRoles
  obtain ⟨⟨origin, source⟩, isChild, role⟩ := List.mem_map.mp inRoles
  obtain ⟨load, _, inLoad⟩ := List.mem_flatMap.mp isChild
  obtain ⟨_, _, same⟩ := List.mem_map.mp inLoad
  obtain ⟨rfl, rfl⟩ := Prod.mk.inj same
  exact ⟨_, _, role.symm, rfl⟩

theorem leaf_newLayers {layer : Layer} (member : layer ∈ tree.newLayers phase gathered)
    (other : Phase) : layer.children other = none :=
  leaf_freshLayers member other

theorem orderAll_newLayers :
    Layer.orderAll (tree.newLayers phase gathered) = (tree.newLayers phase gathered).reverse :=
  Layer.orderAll_of_leaves fun _ => leaf_newLayers

end NewLayers

/-! ### The invariant -/

/-- The entries of a tree, those of stronger layers first. -/
def entries (tree : LayerTree) : List Entry :=
  tree.layers.map Layer.entry

/-- What holds of a tree throughout its growth. -/
structure Sound (known : Option Profiles) (tree : LayerTree) : Prop where
  distinct : (tree.entries.map Entry.stamp).Nodup
  bounded : ∀ entry ∈ tree.entries, entry.stamp < tree.nextStamp
  tidy : ∀ entry ∈ tree.entries, entry.Tidy
  /-- What needs profiles has not happened while they are unknown. -/
  early : known = none → ∀ entry ∈ tree.entries, entry.children .after = none

theorem distinct_iff {tree : LayerTree} : (tree.entries.map Entry.stamp).Nodup ↔ tree.Distinct := by
  rw [entries, List.map_map]
  rfl

theorem entry_mem {tree : LayerTree} {layer : Layer} (member : layer ∈ tree.layers) :
    layer.entry ∈ tree.entries :=
  List.mem_map_of_mem member

theorem Sound.tidy_layer {known : Option Profiles} {tree : LayerTree} (sound : tree.Sound known)
    {layer : Layer} (member : layer ∈ tree.layers) : layer.Tidy :=
  Layer.tidy_entry.mp (sound.tidy _ (entry_mem member))

/-- What is known about profiles may be learned at any time. -/
theorem Sound.learn {tree : LayerTree} (sound : tree.Sound none) (profiles : Profiles) :
    tree.Sound (some profiles) :=
  ⟨sound.distinct, sound.bounded, sound.tidy, fun unknown => by cases unknown⟩

/-! ### One step -/

/-- What a step does with the layer that needs work, given what it loads. -/
inductive Stepped (phase : Phase) (tree next : LayerTree) (layer : Layer) :
    List (Resource × Bundle) → Prop where
  | bound {origin : Origin} {source : Source} {declared : Declared}
      (role : layer.role = .found origin source)
      (edited : Edited [] [] layer.entry (layer.entry.withRole (.bound origin source declared))
        tree.entries next.entries)
      (stamps : next.nextStamp = tree.nextStamp) :
      Stepped phase tree next layer []
  | attached {gathered : List (Resource × Bundle)}
      (ready : layer.role.isFound = false) (pending : layer.children phase = none)
      (edited : Edited (layer.descendants.map Layer.entry)
        ((tree.newLayers phase gathered).map Layer.entry).reverse layer.entry
        (layer.entry.attach phase ((tree.newLayers phase gathered).map Layer.stamp))
        tree.entries next.entries)
      (stamps : next.nextStamp = tree.nextStamp + (tree.newLayers phase gathered).length) :
      Stepped phase tree next layer gathered

/-- The replacement of a layer by another state of itself, with new layers below it, is an edit. -/
theorem edited_replace {known : Option Profiles} {tree : LayerTree} (sound : tree.Sound known)
    {layer replacement : Layer} (member : layer ∈ tree.layers)
    (sameStamp : replacement.stamp = layer.stamp) (block : List Layer)
    (inside : replacement.descendants = block ++ layer.descendants) :
    Edited (layer.descendants.map Layer.entry) (block.map Layer.entry) layer.entry
      replacement.entry tree.entries (tree.replace layer replacement).entries := by
  obtain ⟨front, back, rebuilt, old, new, isRebuilt⟩ :=
    layers_replace (distinct_iff.mp sound.distinct)
      (fun other otherMember => sound.tidy_layer otherMember) member replacement
  have backEntries : rebuilt.map Layer.entry = back.map Layer.entry :=
    Layer.entries_of_forall₂ sameStamp isRebuilt fun other otherMember =>
      sound.tidy_layer (old ▸ List.mem_append_right _ otherMember)
  have edited : Edited (layer.descendants.map Layer.entry) (block.map Layer.entry) layer.entry
      replacement.entry _ _ := .intro (front.map Layer.entry) (back.map Layer.entry)
  rw [entries, entries, old, new, Layer.order_eq, Layer.order_eq, inside]
  simpa only [List.map_append, List.map_cons, List.map_nil, List.append_assoc,
    List.singleton_append, backEntries] using edited

theorem mem_of_next {known : Option Profiles} {tree : LayerTree} {layer : Layer}
    (selected : tree.next? known = some layer) : layer ∈ tree.layers :=
  List.mem_of_find?_eq_some selected

theorem needsWork_iff {known : Option Profiles} {layer : Layer} :
    needsWork known layer = true ↔ layer.role.isFound = true ∨
      layer.isActive known = true ∧ layer.imports ≠ [] ∧
        layer.children (Phase.ofKnown known) = none := by
  rw [needsWork, Bool.or_eq_true, Bool.and_eq_true, Layer.hasPendingImports, Bool.and_eq_true,
    Option.isNone_iff_eq_none, Bool.not_eq_true', List.isEmpty_eq_false_iff]

theorem needsWork_of_next {known : Option Profiles} {tree : LayerTree} {layer : Layer}
    (selected : tree.next? known = some layer) : needsWork known layer = true :=
  List.find?_some selected

/-- Where nothing is left to do, every layer is bound, and every layer that takes part and has
imports is read. -/
theorem done_of_next_none {known : Option Profiles} {tree : LayerTree} {layer : Layer}
    (finished : tree.next? known = none) (member : layer ∈ tree.layers) :
    layer.role.isFound = false ∧ (layer.isActive known = true → layer.imports ≠ [] →
      layer.children (Phase.ofKnown known) ≠ none) := by
  have done := List.find?_eq_none.mp finished layer member
  rw [needsWork_iff, not_or, Bool.not_eq_true] at done
  exact ⟨done.1, fun active imports pending => done.2 ⟨active, imports, pending⟩⟩

/-- A layer that needs work and is not to be bound takes part and has pending imports. -/
theorem pending_of_next {known : Option Profiles} {tree : LayerTree} {layer : Layer}
    (selected : tree.next? known = some layer) (ready : layer.role.isFound = false) :
    layer.isActive known = true ∧ layer.imports ≠ [] ∧
      layer.children (Phase.ofKnown known) = none := by
  refine (needsWork_iff.mp (needsWork_of_next selected)).resolve_left fun isFound => ?_
  rw [ready] at isFound
  cases isFound

section Work

variable {repository : Repository} {known : Option Profiles} {tree next : LayerTree} {layer : Layer}

theorem outcome_gatherFor :
    (gatherFor repository known tree layer).outcome =
      (repository.gather ⟨layer.resource?, known⟩ layer.imports tree.loaded).outcome := by
  rw [gatherFor, Run.outcome_bind]
  rfl

/-- Beside what an import leaves behind there is only a note. -/
theorem recorded_gatherFor (repository : Repository) (known : Option Profiles) (tree : LayerTree)
    (layer : Layer) :
    ∃ note, (gatherFor repository known tree layer).recorded = #[.noted note] ++
      (repository.gather ⟨layer.resource?, known⟩ layer.imports tree.loaded).recorded := by
  rw [gatherFor]
  exact ⟨_, Run.recorded_bind_ok _ rfl⟩

theorem loads_gatherFor :
    (gatherFor repository known tree layer).recorded.loads =
      (repository.gather ⟨layer.resource?, known⟩ layer.imports tree.loaded).recorded.loads := by
  obtain ⟨note, recorded⟩ := recorded_gatherFor repository known tree layer
  rw [recorded, Journal.loads_append, Journal.loads_noted, List.nil_append]

theorem outcome_work_of_found (isFound : layer.role.isFound = true) :
    (work repository known tree layer).outcome = tree.bindLayer known layer := by
  rw [work, if_pos isFound]
  rfl

/-- To bind a layer leaves only a note behind. -/
theorem recorded_work_of_found (repository : Repository) (known : Option Profiles)
    (tree : LayerTree) (isFound : layer.role.isFound = true) :
    ∃ note, (work repository known tree layer).recorded = #[.noted note] := by
  rw [work, if_pos isFound, Run.recorded_bind_ok _ (Run.outcome_trace _), Run.recorded_ofExcept,
    Array.append_empty, Run.recorded_trace]
  exact ⟨_, rfl⟩

theorem loads_work_of_found (isFound : layer.role.isFound = true) :
    (work repository known tree layer).recorded.loads = [] := by
  obtain ⟨note, recorded⟩ := recorded_work_of_found repository known tree isFound
  rw [recorded, Journal.loads_noted]

theorem outcome_work_of_ready (ready : layer.role.isFound = false) :
    (work repository known tree layer).outcome =
      match (gatherFor repository known tree layer).outcome with
      | .ok gathered =>
        .ok (tree.attach layer (Phase.ofKnown known) (childrenOf (Phase.ofKnown known) gathered))
      | .error cause => .error (cause.inLayer layer.name) := by
  rw [work, if_neg (Bool.not_eq_true _ ▸ ready), Run.outcome_bind, Run.outcome_attempt]
  cases (gatherFor repository known tree layer).outcome <;> rfl

theorem recorded_work_of_ready (ready : layer.role.isFound = false) :
    (work repository known tree layer).recorded =
      (gatherFor repository known tree layer).recorded := by
  rw [work, if_neg (Bool.not_eq_true _ ▸ ready),
    Run.recorded_bind_ok _ (Run.outcome_attempt _), Run.recorded_attempt]
  cases (gatherFor repository known tree layer).outcome <;> exact Array.append_empty

theorem loads_work_of_ready (ready : layer.role.isFound = false) :
    (work repository known tree layer).recorded.loads =
      (gatherFor repository known tree layer).recorded.loads := by
  rw [recorded_work_of_ready ready]

/-- A step loads only what the finders lead to. -/
theorem work_within {ids : Finset String} (within : repository.FindsWithin ids) :
    ∀ load ∈ (work repository known tree layer).recorded.loads, load.1.id ∈ ids := by
  intro load member
  cases isFound : layer.role.isFound with
  | true =>
    rw [loads_work_of_found isFound] at member
    cases member
  | false =>
    rw [loads_work_of_ready isFound, loads_gatherFor] at member
    exact Repository.gather_within within _ _ load member

/-- To bind a found layer is to give it the role of a bound one. -/
theorem bind_of_found {lookup : Lookup} {origin : Origin} {source : Source} {bound : Layer}
    (role : layer.role = .found origin source) (succeeded : layer.bind lookup = .ok bound) :
    ∃ declared, bound = layer.withRole (.bound origin source declared) := by
  rw [Layer.bind, role] at succeeded
  obtain ⟨declared, _, isBound⟩ := bind_eq_ok.mp succeeded
  exact ⟨declared, (Except.ok.inj isBound).symm⟩

/-- To bind a found layer that needs work is a step. -/
theorem stepped_of_bind (sound : tree.Sound known) (member : layer ∈ tree.layers)
    (isFound : layer.role.isFound = true) (bound : tree.bindLayer known layer = .ok next)
    (phase : Phase) : Stepped phase tree next layer [] := by
  obtain ⟨origin, source, role⟩ : ∃ origin source, layer.role = .found origin source := by
    cases role : layer.role with
    | found origin source => exact ⟨origin, source, rfl⟩
    | _ => rw [role] at isFound; cases isFound
  obtain ⟨replacement, isBound, replaced⟩ := bind_eq_ok.mp bound
  obtain ⟨declared, rfl⟩ := bind_of_found role isBound
  obtain rfl := Except.ok.inj replaced
  have leaf := sound.tidy_layer member (by rw [role]; rfl)
  have sameStamp := Layer.stamp_withRole (.bound origin source declared) layer
  have edited := edited_replace sound member sameStamp [] (Layer.descendants_withRole _ _)
  rw [Layer.descendants_of_leaf leaf, Layer.entry_withRole] at edited
  exact .bound role edited rfl

/-- To attach what was gathered to a layer that needs it is a step. -/
theorem stepped_of_attach (sound : tree.Sound known) (member : layer ∈ tree.layers)
    (ready : layer.role.isFound = false) (pending : layer.children (Phase.ofKnown known) = none)
    (gathered : List (Resource × Bundle)) :
    Stepped (Phase.ofKnown known) tree
      (tree.attach layer (Phase.ofKnown known) (childrenOf (Phase.ofKnown known) gathered)) layer
      gathered := by
  have tidy := sound.tidy_layer member
  -- While profiles are unknown, no children can be in front of the new ones.
  have first : Phase.ofKnown known = .before → layer.children .after = none := by
    intro isBefore
    cases known with
    | some => cases isBefore
    | none => exact Option.map_eq_none_iff.mp (sound.early rfl _ (entry_mem member))
  have inside := Layer.descendants_withChildren tidy ready
    (tree.newLayers (Phase.ofKnown known) gathered) pending first
  rw [orderAll_newLayers] at inside
  have edited := edited_replace sound member (Layer.stamp_withChildren _ _ _) _ inside
  rw [Layer.entry_attach tidy ready, List.map_reverse] at edited
  refine .attached ready pending edited ?_
  rw [length_newLayers]
  rfl

/-- A step that succeeds binds the layer, or attaches to it what the step loads. -/
theorem stepped_of_work (sound : tree.Sound known) (selected : tree.next? known = some layer)
    (worked : (work repository known tree layer).outcome = .ok next) :
    Stepped (Phase.ofKnown known) tree next layer
      (work repository known tree layer).recorded.loads := by
  have member := mem_of_next selected
  cases isFound : layer.role.isFound with
  | true =>
    rw [loads_work_of_found isFound]
    rw [outcome_work_of_found isFound] at worked
    exact stepped_of_bind sound member isFound worked _
  | false =>
    obtain ⟨_, _, pending⟩ := pending_of_next selected isFound
    rw [outcome_work_of_ready isFound] at worked
    split at worked
    · next gathered succeeded =>
      obtain rfl := Except.ok.inj worked
      rw [outcome_gatherFor] at succeeded
      rw [loads_work_of_ready isFound, loads_gatherFor, Repository.loads_gather_ok succeeded]
      exact stepped_of_attach sound member isFound pending gathered
    · cases worked

end Work

/-! ### The entries after a step -/

/-- Where an entry of the next tree comes from. -/
inductive EntryAfter (phase : Phase) (tree : LayerTree) (layer : Layer)
    (gathered : List (Resource × Bundle)) : Entry → Prop where
  | kept {entry : Entry} (member : entry ∈ tree.entries) :
      EntryAfter phase tree layer gathered entry
  | bound {origin : Origin} {source : Source} {declared : Declared}
      (role : layer.role = .found origin source) (member : layer.entry ∈ tree.entries) :
      EntryAfter phase tree layer gathered
        (layer.entry.withRole (.bound origin source declared))
  | attached (ready : layer.role.isFound = false) (pending : layer.children phase = none)
      (member : layer.entry ∈ tree.entries) :
      EntryAfter phase tree layer gathered
        (layer.entry.attach phase ((tree.newLayers phase gathered).map Layer.stamp))
  | fresh {new : Layer} (isNew : new ∈ tree.newLayers phase gathered) :
      EntryAfter phase tree layer gathered new.entry

theorem Stepped.entryAfter {phase : Phase} {tree next : LayerTree} {layer : Layer}
    {gathered : List (Resource × Bundle)} (stepped : Stepped phase tree next layer gathered)
    {entry : Entry} (member : entry ∈ next.entries) :
    EntryAfter phase tree layer gathered entry := by
  cases stepped with
  | bound role edited _ =>
    rcases edited.mem_old member with isChanged | isOld
    · rw [List.mem_singleton.mp isChanged]
      exact .bound role edited.before_mem
    · exact .kept isOld
  | attached ready pending edited _ =>
    rcases edited.mem_old member with isNew | isOld
    · rcases List.mem_cons.mp isNew with rfl | inBlock
      · exact .attached ready pending edited.before_mem
      · obtain ⟨fresh, isFresh, rfl⟩ := List.mem_map.mp (List.mem_reverse.mp inBlock)
        exact .fresh isFresh
    · exact .kept isOld

/-! ### The root -/

theorem getLast?_entries (tree : LayerTree) : tree.entries.getLast? = some tree.root.entry := by
  rw [entries, layers_eq, Layer.order_eq, List.map_append]
  exact List.getLast?_concat

/-- The root stays the root. -/
theorem Stepped.role_root {phase : Phase} {tree next : LayerTree} {layer : Layer}
    {gathered : List (Resource × Bundle)} (stepped : Stepped phase tree next layer gathered)
    (isRoot : tree.root.role = .root) : next.root.role = .root := by
  cases stepped with
  | bound role edited _ =>
    have last := edited.getLast?
    rw [getLast?_entries, getLast?_entries] at last
    rcases last with ⟨isLayer, _⟩ | same
    · have sameRole : tree.root.role = layer.role :=
        congrArg Entry.role (Option.some.inj isLayer)
      rw [isRoot, role] at sameRole
      cases sameRole
    · exact (congrArg Entry.role (Option.some.inj same)).trans isRoot
  | attached _ _ edited _ =>
    have last := edited.getLast?
    rw [getLast?_entries, getLast?_entries] at last
    rcases last with ⟨isLayer, isAfter⟩ | same
    · have sameRole : tree.root.role = layer.role :=
        congrArg Entry.role (Option.some.inj isLayer)
      have opened : next.root.role = layer.role.opened :=
        congrArg Entry.role (Option.some.inj isAfter)
      rw [opened, ← sameRole, isRoot]
      rfl
    · exact (congrArg Entry.role (Option.some.inj same)).trans isRoot

/-! ### The invariant is kept -/

section Kept

variable {known : Option Profiles} {phase : Phase} {tree next : LayerTree} {layer : Layer}
  {gathered : List (Resource × Bundle)}

theorem Sound.of_edited (sound : tree.Sound known) {inside block : List Entry}
    {before after : Entry}
    (edited : Edited inside block before after tree.entries next.entries)
    (sameStamp : after.stamp = before.stamp) (grows : tree.nextStamp ≤ next.nextStamp)
    (distinct : (block.map Entry.stamp).Nodup)
    (fresh : ∀ entry ∈ block, tree.nextStamp ≤ entry.stamp ∧ entry.stamp < next.nextStamp)
    (tidy : ∀ entry ∈ after :: block, entry.Tidy)
    (early : known = none → ∀ entry ∈ after :: block, entry.children .after = none) :
    next.Sound known := by
  refine ⟨?_, ?_, ?_, ?_⟩
  · rw [(edited.perm_stamps sameStamp).nodup_iff, List.nodup_append]
    refine ⟨distinct, sound.distinct, fun first isNew second isOld same => ?_⟩
    obtain ⟨newEntry, inBlock, rfl⟩ := List.mem_map.mp isNew
    obtain ⟨oldEntry, inTree, rfl⟩ := List.mem_map.mp isOld
    have := (fresh newEntry inBlock).1
    have := sound.bounded oldEntry inTree
    omega
  · intro entry member
    rcases edited.mem_old member with isNew | isOld
    · rcases List.mem_cons.mp isNew with rfl | inBlock
      · have := sound.bounded before edited.before_mem
        omega
      · exact (fresh entry inBlock).2
    · have := sound.bounded entry isOld
      omega
  · intro entry member
    exact (edited.mem_old member).elim (tidy entry) (sound.tidy entry)
  · intro unknown entry member
    exact (edited.mem_old member).elim (early unknown entry) (sound.early unknown entry)

/-- New layers have stamps that no layer has had. -/
theorem stamp_newLayers (member : layer ∈ tree.newLayers phase gathered) :
    tree.nextStamp ≤ layer.stamp ∧
      layer.stamp < tree.nextStamp + (tree.newLayers phase gathered).length := by
  have inStamps := List.mem_map_of_mem (f := Layer.stamp) member
  rw [stamps_newLayers, List.mem_range'_1] at inStamps
  exact inStamps

theorem mem_newBlock {entry : Entry}
    (member : entry ∈ ((tree.newLayers phase gathered).map Layer.entry).reverse) :
    ∃ fresh ∈ tree.newLayers phase gathered, fresh.entry = entry :=
  List.mem_map.mp (List.mem_reverse.mp member)

theorem Stepped.sound (sound : tree.Sound known)
    (stepped : Stepped (Phase.ofKnown known) tree next layer gathered) : next.Sound known := by
  cases stepped with
  | bound role edited stamps =>
    have leaf : ∀ other, layer.entry.children other = none :=
      sound.tidy _ edited.before_mem (by show layer.role.isClosed = true; rw [role]; rfl)
    refine sound.of_edited edited rfl (by omega) List.nodup_nil ?_ ?_ ?_
    · intro entry member
      cases member
    · intro entry member
      rw [List.mem_singleton.mp member]
      exact fun _ => leaf
    · intro _ entry member
      rw [List.mem_singleton.mp member]
      exact leaf .after
  | attached ready _ edited stamps =>
    refine sound.of_edited edited rfl (by omega) ?_ ?_ ?_ ?_
    · rw [List.map_reverse, List.nodup_reverse, List.map_map]
      exact stamps_newLayers ▸ List.nodup_range'
    · intro entry member
      obtain ⟨fresh, isFresh, rfl⟩ := mem_newBlock member
      rw [stamps]
      exact stamp_newLayers isFresh
    · intro entry member
      rcases List.mem_cons.mp member with rfl | inBlock
      · intro closed
        have opened := Role.isClosed_opened ready
        rw [show layer.role.opened.isClosed = true from closed] at opened
        cases opened
      · obtain ⟨fresh, isFresh, rfl⟩ := mem_newBlock inBlock
        exact Layer.tidy_entry.mpr fun _ => leaf_newLayers isFresh
    · intro unknown entry member
      subst unknown
      rcases List.mem_cons.mp member with rfl | inBlock
      · exact sound.early rfl layer.entry edited.before_mem
      · obtain ⟨fresh, isFresh, rfl⟩ := mem_newBlock inBlock
        show (fresh.children .after).map _ = none
        rw [leaf_newLayers isFresh]
        rfl

end Kept

end LayerTree

end LayeredConfig
