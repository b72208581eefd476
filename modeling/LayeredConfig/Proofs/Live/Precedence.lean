/-
This file proves that no step changes the order of strength among the layers that are there.

A step that binds a layer changes the role of this layer and nothing else. A step that reads imports
puts the new layers, as one block, right in front of the segment that the importing layer owns: its
descendants and then the layer itself. All other layers stay where they are, with their sources,
their origins and their children, and a layer only goes on from found to bound and to expanded. So
the given sources keep their order in every tree that a resolution comes to, whatever the finders
and readers answer on the way.
-/

import LayeredConfig.Proofs.Live.SingleReading

namespace LayeredConfig

/-! ### What may become of an entry -/

/-- The second role is the first one or the one that follows it in the life of a found layer. -/
inductive Role.Leads : Role → Role → Prop where
  | same (role : Role) : Leads role role
  | bound (origin : Origin) (source : Source) (declared : Declared) :
      Leads (.found origin source) (.bound origin source declared)
  | expanded (origin : Origin) (source : Source) (declared : Declared) :
      Leads (.bound origin source declared) (.expanded origin source declared)

theorem Role.leads_opened (role : Role) : role.Leads role.opened := by
  cases role with
  | bound origin source declared => exact .expanded origin source declared
  | _ => exact .same _

/-- The second entry is a later state of the first one, or the same. -/
structure Entry.Becomes (old new : Entry) : Prop where
  stamp : new.stamp = old.stamp
  source : new.role.source? = old.role.source?
  origin : new.role.origin? = old.role.origin?
  role : old.role.Leads new.role
  /-- What a phase has attached stays attached. -/
  children : ∀ phase stamps, old.children phase = some stamps → new.children phase = some stamps

namespace Entry

theorem becomes_self (entry : Entry) : entry.Becomes entry :=
  ⟨rfl, rfl, rfl, .same _, fun _ _ attached => attached⟩

theorem becomes_bound {entry : Entry} {origin : Origin} {source : Source}
    (role : entry.role = .found origin source) (declared : Declared) :
    entry.Becomes (entry.withRole (.bound origin source declared)) := by
  refine ⟨rfl, ?_, ?_, ?_, fun _ _ attached => attached⟩
  · rw [role]
    rfl
  · rw [role]
    rfl
  · rw [role]
    exact .bound origin source declared

theorem becomes_attach {entry : Entry} {phase : Phase} (pending : entry.children phase = none)
    (stamps : List Nat) : entry.Becomes (entry.attach phase stamps) := by
  refine ⟨rfl, Role.source_opened _, Role.origin_opened _, Role.leads_opened _, ?_⟩
  intro other attachedStamps attached
  have different : other ≠ phase := by
    rintro rfl
    rw [pending] at attached
    cases attached
  rw [children_attach, if_neg different, attached]

end Entry

/-- An edit keeps every entry but the one that it changes. -/
theorem Edited.becomes {inside block old new : List Entry} {before after : Entry}
    (edited : Edited inside block before after old new) (changed : before.Becomes after) :
    List.SublistForall₂ Entry.Becomes old new := by
  have kept (entries : List Entry) : List.Forall₂ Entry.Becomes entries entries :=
    List.forall₂_same.mpr fun entry _ => entry.becomes_self
  obtain ⟨front, back⟩ := edited
  refine List.sublistForall₂_iff.mpr ⟨front ++ inside ++ after :: back, ?_, ?_⟩
  · exact List.rel_append (List.rel_append (kept front) (kept inside)) (.cons changed (kept back))
  · exact ((List.sublist_append_left front block).append (.refl inside)).append (.refl _)

/-! ### What a step does -/

namespace LayerTree

/-- The step binds a found layer, and does nothing else. -/
def BindsOnly (tree next : LayerTree) (layer : Layer)
    (gathered : List (Resource × Bundle)) : Prop :=
  gathered = [] ∧ ∃ origin source declared, layer.role = .found origin source ∧
    Edited [] [] layer.entry (layer.entry.withRole (.bound origin source declared)) tree.entries
      next.entries

/-- The step attaches to a layer what was gathered: found layers which stand as one block in front
of the segment of the layer, those of the bundle that was read last first, and those of one bundle
in the order of its sources. -/
def InsertsBlock (phase : Phase) (tree next : LayerTree) (layer : Layer)
    (gathered : List (Resource × Bundle)) : Prop :=
  layer.role.isFound = false ∧ ∃ block : List Entry,
    Edited (layer.descendants.map Layer.entry) block layer.entry
      (layer.entry.attach phase (block.map Entry.stamp).reverse) tree.entries next.entries ∧
    block.map Entry.role = gathered.reverse.flatMap fun load =>
      load.2.sources.map fun source => .found ⟨load.1, load.2.profileSpecific, phase⟩ source

/-- What a step does to the order of strength. -/
structure Advances (phase : Phase) (tree next : LayerTree) (layer : Layer)
    (gathered : List (Resource × Bundle)) : Prop where
  sources : (tree.layers.filterMap Layer.source?).Sublist (next.layers.filterMap Layer.source?)
  entries : List.SublistForall₂ Entry.Becomes tree.entries next.entries
  change : BindsOnly tree next layer gathered ∨ InsertsBlock phase tree next layer gathered

section Stepped

variable {phase : Phase} {tree next : LayerTree} {layer : Layer}
  {gathered : List (Resource × Bundle)}

theorem sources_eq (tree : LayerTree) :
    tree.layers.filterMap Layer.source? = tree.marks.filterMap Mark.source? := by
  rw [marks_eq, List.filterMap_map]
  rfl

theorem Stepped.sublist_sources (stepped : Stepped phase tree next layer gathered) :
    (tree.layers.filterMap Layer.source?).Sublist (next.layers.filterMap Layer.source?) := by
  obtain ⟨front, back, old, new⟩ := stepped.marks
  rw [sources_eq, sources_eq, old, new]
  exact ((List.sublist_append_left front _).append (.refl back)).filterMap _

theorem role_newBlock :
    ((tree.newLayers phase gathered).map Layer.entry).reverse.map Entry.role =
      gathered.reverse.flatMap fun load =>
        load.2.sources.map fun source => .found ⟨load.1, load.2.profileSpecific, phase⟩ source := by
  rw [List.map_reverse, List.map_map, show Entry.role ∘ Layer.entry = Layer.role from rfl,
    roles_newLayers, ← List.map_reverse, reverse_childrenOf, List.map_flatMap]
  simp only [List.map_map]
  rfl

theorem Stepped.advances (stepped : Stepped phase tree next layer gathered) :
    Advances phase tree next layer gathered := by
  have sources := stepped.sublist_sources
  cases stepped with
  | @bound origin source declared role edited _ =>
    exact ⟨sources, edited.becomes (Entry.becomes_bound role declared),
      Or.inl ⟨rfl, origin, source, declared, role, edited⟩⟩
  | attached ready pending edited _ =>
    have isPending : layer.entry.children phase = none := by
      rw [Layer.children_entry, pending, Option.map_none]
    have stamps :
        (((tree.newLayers phase gathered).map Layer.entry).reverse.map Entry.stamp).reverse =
          (tree.newLayers phase gathered).map Layer.stamp := by
      rw [List.map_reverse, List.reverse_reverse, List.map_map]
      rfl
    rw [← stamps] at edited
    exact ⟨sources, edited.becomes (Entry.becomes_attach isPending _),
      Or.inr ⟨ready, _, edited, role_newBlock⟩⟩

end Stepped

/-! ### The given sources -/

/-- The sources of the layers that were not found, the strongest first. -/
def givenSources (tree : LayerTree) : List Source :=
  (tree.layers.filter fun layer => layer.origin?.isNone).filterMap Layer.source?

theorem givenSources_eq (tree : LayerTree) :
    tree.givenSources = (tree.marks.filter (·.origin?.isNone)).filterMap Mark.source? := by
  rw [marks_eq, List.filter_map, List.filterMap_map]
  rfl

theorem Stepped.givenSources_eq {phase : Phase} {tree next : LayerTree} {layer : Layer}
    {gathered : List (Resource × Bundle)} (stepped : Stepped phase tree next layer gathered) :
    next.givenSources = tree.givenSources := by
  obtain ⟨front, back, old, new⟩ := stepped.marks
  have noneGiven : (tree.newMarks phase gathered).filter (·.origin?.isNone) = [] :=
    List.filter_eq_nil_iff.mpr fun mark isNew isGiven => by
      obtain ⟨load, _, isFind⟩ := mem_newMarks isNew
      rw [origin_of_find isFind] at isGiven
      cases isGiven
  rw [LayerTree.givenSources_eq, LayerTree.givenSources_eq, old, new, List.filter_append,
    List.filter_append, noneGiven, List.append_nil, List.filter_append]

end LayerTree

namespace LiveRepository

open LayerTree Expansion

theorem Comes.givenSources_eq {live : LiveRepository} {initial : List Source}
    {request : ProfileRequest} {known : Option Profiles} {tree : LayerTree}
    {expansions : List Expansion} (comes : live.Comes initial request known tree expansions) :
    tree.givenSources = initial := by
  induction comes with
  | start bound =>
    rw [LayerTree.givenSources_eq, List.filter_eq_self.mpr, sources_start bound]
    intro mark member
    rw [origin_start bound member]
    rfl
  | step comes selected worked inductionHypothesis =>
    obtain ⟨gathered, stepped, _⟩ := comes.gathers selected worked
    exact stepped.givenSources_eq.trans inductionHypothesis
  | learn _ _ _ inductionHypothesis => exact inductionHypothesis

/-- Work that succeeds in a tree that a resolution comes to keeps the order of strength, and what it
adds to the tree is what it loads. -/
theorem Comes.advances {live : LiveRepository} {initial : List Source} {request : ProfileRequest}
    {known : Option Profiles} {tree next : LayerTree} {layer : Layer}
    {expansions : List Expansion} {calls : List Call}
    (comes : live.Comes initial request known tree expansions)
    (selected : tree.next? known = some layer)
    (worked : live.work known tree layer (callsOf expansions) = (.ok next, calls)) :
    ∃ made, calls = callsOf expansions ++ made ∧
      Advances (Phase.ofKnown known) tree next layer (Call.loadsOf made) := by
  obtain ⟨gathered, stepped, _, once⟩ := stepped_with_loads comes.sound selected worked
  obtain ⟨made, added⟩ := calls_work live known tree layer expansions
  have recorded := once.recorded
  rw [added, callsOf_append, Call.loadsOf_append] at recorded
  rw [worked, callsOf_append] at added
  refine ⟨_, added, ?_⟩
  rw [List.append_cancel_left recorded]
  exact stepped.advances

/-- In every tree that a resolution comes to, the given sources stand in their order, and every step
from there keeps the order of strength; so the given sources stand in their order at the end. The
finders and readers may answer as they like each time, and a step adds what they answer in it. -/
theorem precedence_kept (live : LiveRepository) (initial : List Source)
    (request : ProfileRequest) :
    (∀ known tree expansions, live.Comes initial request known tree expansions →
      tree.givenSources = initial ∧
      ∀ layer next calls, tree.next? known = some layer →
        live.work known tree layer (callsOf expansions) = (.ok next, calls) →
        ∃ made, calls = callsOf expansions ++ made ∧
          Advances (Phase.ofKnown known) tree next layer (Call.loadsOf made)) ∧
    ∀ configuration calls, live.resolve initial request [] = (.ok configuration, calls) →
      configuration.tree.givenSources = initial := by
  refine ⟨fun known tree expansions comes => ⟨comes.givenSources_eq, ?_⟩, ?_⟩
  · intro layer next calls selected worked
    exact comes.advances selected worked
  · intro configuration calls succeeded
    obtain ⟨⟨expansions, comes, _⟩, _⟩ :=
      (leaves_resolve live initial request).of_eq_ok succeeded
    exact comes.givenSources_eq

/-- The first step for two sources, of which the stronger one imports two bundles: the first comes
without sources and changes the repository, so the second comes with two. -/
theorem precedence_kept_of_fillingTable :
    ∃ tree layer next made,
      ofBoundSources importingTwice = .ok tree ∧ tree.next? none = some layer ∧
        fillingTable.work none tree layer [] = (.ok next, made) ∧
        Advances .before tree next layer (Call.loadsOf made) := by
  have possible : (do
      let tree ← ofBoundSources importingTwice
      (tree.next? none).elim (.error (.unfinished 0)) fun layer =>
        (fillingTable.work none tree layer []).1).isOk = true := by
    decide +kernel
  obtain ⟨next, succeeded⟩ := exists_ok_of_isOk possible
  obtain ⟨tree, bound, worked⟩ := bind_eq_ok.mp succeeded
  cases selected : tree.next? none with
  | none =>
    rw [selected] at worked
    cases worked
  | some layer =>
    rw [selected] at worked
    obtain ⟨made, added, advances⟩ :=
      ((precedence_kept fillingTable importingTwice .unset).1 none tree [] (.start bound)).2 layer
        next _ selected (Prod.ext worked rfl)
    exact ⟨tree, layer, next, made, bound, selected, Prod.ext worked added, advances⟩

end LiveRepository

end LayeredConfig
