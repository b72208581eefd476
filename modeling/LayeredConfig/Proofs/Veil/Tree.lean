/-
This file gives the layers of a tree other sources.

The layers that were found get other sources, and the initial ones keep theirs. A step looks into a
source only to bind a layer. All else that it does to a tree, it does in the same way when the
sources are others: it goes by stamps, roles, origins and imports, and by the names of sources,
which stay.
-/

import LayeredConfig.Layer.Expansion
import LayeredConfig.Proofs.Layer.Activity
import Mathlib.Data.List.Basic

namespace LayeredConfig

/-! ### Layers -/

/-- The role with another source, unless it is that of an initial layer. -/
def Role.mapSource (change : Source → Source) : Role → Role
  | .found origin source => .found origin (change source)
  | .bound origin source declared => .bound origin (change source) declared
  | .expanded origin source declared => .expanded origin (change source) declared
  | other => other

section Roles

variable (change : Source → Source) (role : Role)

@[simp] theorem Role.origin_mapSource : (role.mapSource change).origin? = role.origin? := by
  cases role <;> rfl

@[simp] theorem Role.imports_mapSource : (role.mapSource change).imports = role.imports := by
  cases role <;> rfl

@[simp] theorem Role.isFound_mapSource : (role.mapSource change).isFound = role.isFound := by
  cases role <;> rfl

@[simp] theorem Role.isActive_mapSource (known : Option Profiles) :
    (role.mapSource change).isActive known = role.isActive known := by
  cases role <;> rfl

end Roles

namespace Layer

mutual

/-- The layer and those below it, with other sources for those that were found. -/
def mapSources (change : Source → Source) : Layer → Layer
  | node stamp revision role before after =>
    node stamp revision (role.mapSource change) (mapSourcesPhase change before)
      (mapSourcesPhase change after)

def mapSourcesPhase (change : Source → Source) : Option (List Layer) → Option (List Layer)
  | none => none
  | some found => some (mapSourcesAll change found)

def mapSourcesAll (change : Source → Source) : List Layer → List Layer
  | [] => []
  | layer :: rest => mapSources change layer :: mapSourcesAll change rest

end

section MapSources

variable (change : Source → Source) (layer : Layer)

theorem mapSourcesAll_eq (found : List Layer) :
    mapSourcesAll change found = found.map (mapSources change) := by
  induction found with
  | nil => rfl
  | cons layer rest inductionHypothesis =>
    rw [mapSourcesAll, inductionHypothesis, List.map_cons]

theorem mapSourcesPhase_eq (found : Option (List Layer)) :
    mapSourcesPhase change found = found.map (·.map (mapSources change)) := by
  cases found with
  | none => rfl
  | some found => rw [mapSourcesPhase, mapSourcesAll_eq, Option.map_some]

@[simp] theorem role_mapSources :
    (layer.mapSources change).role = layer.role.mapSource change := by
  cases layer
  rfl

@[simp] theorem children_mapSources (phase : Phase) :
    (layer.mapSources change).children phase =
      (layer.children phase).map (·.map (mapSources change)) := by
  cases layer
  cases phase <;> exact mapSourcesPhase_eq change _

@[simp] theorem isSame_mapSources (other : Layer) :
    (layer.mapSources change).isSame (other.mapSources change) = layer.isSame other := by
  cases layer
  cases other
  rfl

@[simp] theorem resource_mapSources : (layer.mapSources change).resource? = layer.resource? := by
  simp only [resource?, origin?, role_mapSources, Role.origin_mapSource]

@[simp] theorem imports_mapSources : (layer.mapSources change).imports = layer.imports := by
  simp only [imports, role_mapSources, Role.imports_mapSource]

@[simp] theorem isActive_mapSources (known : Option Profiles) :
    (layer.mapSources change).isActive known = layer.isActive known := by
  rw [isActive_eq, isActive_eq, role_mapSources, Role.isActive_mapSource]

theorem source_mapSources : (layer.mapSources change).source? =
    (layer.role.mapSource change).source? := by
  rw [source?, role_mapSources]

theorem isSome_source_mapSources :
    (layer.mapSources change).source?.isSome = layer.source?.isSome := by
  rw [source_mapSources, source?]
  cases layer.role <;> rfl

variable {change} in
theorem name_mapSources (sameName : ∀ source, (change source).name = source.name) :
    (layer.mapSources change).name = layer.name := by
  rw [name, name, source_mapSources, source?]
  cases layer.role <;> first | rfl | exact sameName _

/-! ### Order and rebuilding -/

theorem order_mapSources :
    (layer.mapSources change).order = layer.order.map (mapSources change) := by
  induction layer using treeInduction with
  | step layer inductionHypothesis =>
    have inPhase (phase : Phase) : orderPhase ((layer.mapSources change).children phase) =
        (orderPhase (layer.children phase)).map (mapSources change) := by
      rw [children_mapSources]
      cases attached : layer.children phase with
      | none => rfl
      | some found =>
        rw [Option.map_some, orderPhase, orderPhase, orderAll_eq, orderAll_eq, ← List.map_reverse,
          List.flatMap_map, List.map_flatMap]
        refine List.flatMap_congr fun child member => ?_
        exact inductionHypothesis phase found attached child (List.mem_reverse.mp member)
    rw [order_eq, order_eq, descendants, descendants, inPhase, inPhase, List.map_append,
      List.map_append, List.map_singleton]

theorem mapSources_withRole (role : Role) :
    (layer.withRole role).mapSources change =
      (layer.mapSources change).withRole (role.mapSource change) := by
  cases layer
  rfl

theorem mapSources_withChildren (phase : Phase) (found : List Layer) :
    (layer.withChildren phase found).mapSources change =
      (layer.mapSources change).withChildren phase (found.map (mapSources change)) := by
  obtain ⟨stamp, revision, role, before, after⟩ := layer
  rw [← mapSourcesAll_eq]
  cases role <;> cases phase <;> rfl

/-- The search for a layer, with the children of the layer that it starts at. -/
theorem replaceIn?_eq (target replacement : Layer) :
    replaceIn? target replacement layer =
      if layer.isSame target then some replacement
      else
        match replaceInPhase? target replacement (layer.children .after) with
        | some found => some (layer.withChildren .after found)
        | none =>
          (replaceInPhase? target replacement (layer.children .before)).map
            (layer.withChildren .before) := by
  obtain ⟨stamp, revision, role, before, after⟩ := layer
  rw [replaceIn?]
  congr 1
  show (match replaceInPhase? target replacement after with
    | some found => _
    | none => _) = match replaceInPhase? target replacement after with
    | some found => _
    | none => (replaceInPhase? target replacement before).map _
  cases replaceInPhase? target replacement after with
  | some found => rfl
  | none => cases replaceInPhase? target replacement before <;> rfl

variable {layer} in
theorem replaceInAll?_mapSources {target replacement : Layer} {found : List Layer}
    (inEach : ∀ child ∈ found,
      replaceIn? (target.mapSources change) (replacement.mapSources change)
        (child.mapSources change) =
        (replaceIn? target replacement child).map (mapSources change)) :
    replaceInAll? (target.mapSources change) (replacement.mapSources change)
        (found.map (mapSources change)) =
      (replaceInAll? target replacement found).map (·.map (mapSources change)) := by
  induction found with
  | nil => rfl
  | cons child rest inductionHypothesis =>
    rw [List.map_cons, replaceInAll?, replaceInAll?, inEach child List.mem_cons_self,
      inductionHypothesis fun other member => inEach other (List.mem_cons_of_mem _ member)]
    cases replaceIn? target replacement child with
    | some replaced => rfl
    | none => cases replaceInAll? target replacement rest <;> rfl

/-- Replacement goes by stamps and revisions, so it finds the same layer whatever the sources are.
-/
theorem replaceIn?_mapSources (target replacement : Layer) :
    replaceIn? (target.mapSources change) (replacement.mapSources change)
        (layer.mapSources change) =
      (replaceIn? target replacement layer).map (mapSources change) := by
  induction layer using treeInduction with
  | step layer inductionHypothesis =>
    have inPhase (phase : Phase) :
        replaceInPhase? (target.mapSources change) (replacement.mapSources change)
            ((layer.mapSources change).children phase) =
          (replaceInPhase? target replacement (layer.children phase)).map
            (·.map (mapSources change)) := by
      rw [children_mapSources]
      cases attached : layer.children phase with
      | none => rfl
      | some found =>
        exact replaceInAll?_mapSources change fun child member =>
          inductionHypothesis phase found attached child member
    rw [replaceIn?_eq, replaceIn?_eq, isSame_mapSources, inPhase, inPhase]
    split
    · rfl
    · cases replaceInPhase? target replacement (layer.children .after) with
      | some found => exact congrArg some (mapSources_withChildren change layer .after found).symm
      | none =>
        cases replaceInPhase? target replacement (layer.children .before) with
        | some found =>
          exact congrArg some (mapSources_withChildren change layer .before found).symm
        | none => rfl

end MapSources

end Layer

/-! ### Trees -/

namespace LayerTree

/-- The tree with other sources for the layers that were found. -/
def mapSources (change : Source → Source) (tree : LayerTree) : LayerTree :=
  { tree with root := tree.root.mapSources change }

section MapSources

variable (change : Source → Source) (tree : LayerTree)

theorem layers_mapSources :
    (tree.mapSources change).layers = tree.layers.map (Layer.mapSources change) := by
  rw [layers_eq, layers_eq]
  exact Layer.order_mapSources change tree.root

theorem loaded_mapSources : (tree.mapSources change).loaded = tree.loaded := by
  rw [loaded, loaded, layers_mapSources, List.filterMap_map]
  refine List.filterMap_congr fun layer _ => ?_
  rw [Function.comp_apply, Layer.resource_mapSources]

theorem replace_mapSources (target replacement : Layer) :
    (tree.mapSources change).replace (target.mapSources change) (replacement.mapSources change) =
      (tree.replace target replacement).mapSources change := by
  rw [replace, replace, mapSources, mapSources]
  dsimp only
  rw [Layer.replaceIn?_mapSources]
  cases Layer.replaceIn? target replacement tree.root <;> rfl

theorem freshLayers_mapSources (firstStamp : Nat) (roles : List Role) :
    freshLayers firstStamp (roles.map (Role.mapSource change)) =
      (freshLayers firstStamp roles).map (Layer.mapSources change) := by
  rw [freshLayers, freshLayers, List.zipIdx_map, List.map_map, List.map_map]
  rfl

theorem attach_mapSources (target : Layer) (phase : Phase) (found : List (Origin × Source)) :
    (tree.mapSources change).attach (target.mapSources change) phase
        (found.map fun child => (child.1, change child.2)) =
      (tree.attach target phase found).mapSources change := by
  have fresh : freshLayers tree.nextStamp ((found.map fun child => (child.1, change child.2)).map
      fun child => .found child.1 child.2) =
      (freshLayers tree.nextStamp (found.map fun child => .found child.1 child.2)).map
        (Layer.mapSources change) := by
    rw [← freshLayers_mapSources, List.map_map, List.map_map]
    rfl
  rw [attach, attach]
  dsimp only
  rw [← replace_mapSources, Layer.mapSources_withChildren, List.length_map]
  exact congrArg (fun fresh => LayerTree.replace _ _ (Layer.withChildren phase fresh _)) fresh

theorem needsWork_mapSources (known : Option Profiles) (layer : Layer) :
    needsWork known (layer.mapSources change) = needsWork known layer := by
  rw [needsWork, needsWork, Layer.role_mapSources, Role.isFound_mapSource,
    Layer.isActive_mapSources, Layer.hasPendingImports, Layer.hasPendingImports,
    Layer.imports_mapSources, Layer.children_mapSources, Option.isNone_map]

/-- The layer that needs work is the same one, with another source. -/
theorem next?_mapSources (known : Option Profiles) :
    (tree.mapSources change).next? known = (tree.next? known).map (Layer.mapSources change) := by
  rw [next?, next?, layers_mapSources, List.find?_map]
  congr 2
  funext layer
  exact needsWork_mapSources change known layer

theorem childrenOf_mapSources (phase : Phase) (gathered : List (Resource × Bundle)) :
    childrenOf phase (gathered.map fun load =>
        (load.1, { load.2 with sources := load.2.sources.map change })) =
      (childrenOf phase gathered).map fun child => (child.1, change child.2) := by
  rw [childrenOf, childrenOf, List.flatMap_map, List.map_flatMap]
  refine List.flatMap_congr fun load _ => ?_
  simp only [← List.map_reverse, List.map_map]
  rfl

end MapSources

end LayerTree

end LayeredConfig
