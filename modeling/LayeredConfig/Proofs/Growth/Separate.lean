/-
This file shows that the given sources are bound as if each of them were the only one to be bound.

The layers of the sources are bound one after the other, and each finds those before it bound
already. But binding an initial layer changes neither its source nor whether it takes part, and this
is all that the placeholders of another layer can see of it. So a layer is bound to the same imports
in every stage, those that it is bound to while all others are unbound; it keeps its place; and only
which error comes first depends on the order in which the layers are taken.
-/

import LayeredConfig.Proofs.Growth.Start
import LayeredConfig.Proofs.Lookup.Elements
import LayeredConfig.Proofs.Veil.Binding

namespace LayeredConfig

/-- An initial layer with the imports that it declares. -/
def Layer.withImports (imports : List Location) (layer : Layer) : Layer :=
  match layer.role with
  | .initial source _ => layer.withRole (.initial source imports)
  | _ => layer

namespace LayerTree

/-- The imports that a layer is bound to while the tree is as it is. -/
def importsIn (tree : LayerTree) (layer : Layer) : Except Error (List Location) :=
  (Lookup.ofLayer tree layer none).getImports

/-- The tree of initial layers, the strongest first, after so many steps. -/
def ofLayers (steps : Nat) (layers : List Layer) : LayerTree :=
  ⟨.node 0 steps .root (some layers.reverse) none, layers.length + 1⟩

/-- An initial layer bound by itself, while no other one is. -/
def boundAlone (sources : List Source) (layer : Layer) : Layer :=
  match (ofSources sources).importsIn layer with
  | .ok imports => layer.withImports imports
  | .error _ => layer

/-- An initial layer when the layers with the given stamps are bound. -/
def inStage (sources : List Source) (done : List Nat) (layer : Layer) : Layer :=
  if layer.stamp ∈ done then boundAlone sources layer else layer

/-- The tree of the sources when the layers with the given stamps are bound. -/
def stage (sources : List Source) (done : List Nat) : LayerTree :=
  ofLayers done.length ((initialLayers sources).map (inStage sources done))

section Stage

variable {sources : List Source} {done : List Nat} {layer : Layer}

theorem layers_ofLayers {steps : Nat} {layers : List Layer}
    (leaves : ∀ layer ∈ layers, ∀ phase, layer.children phase = none) :
    (ofLayers steps layers).layers = layers ++ [(ofLayers steps layers).root] := by
  rw [layers_eq, Layer.order_eq]
  show [] ++ Layer.orderAll layers.reverse ++ _ = _
  rw [Layer.orderAll_of_leaves fun layer member => leaves layer (List.mem_reverse.mp member),
    List.reverse_reverse, List.nil_append]

theorem length_initialLayers (sources : List Source) :
    (initialLayers sources).length = sources.length := by
  rw [initialLayers, length_freshLayers, List.length_map]

theorem stage_nil (sources : List Source) : stage sources [] = ofSources sources := by
  have unbound : (initialLayers sources).map (inStage sources []) = initialLayers sources :=
    List.map_id'' (fun layer => if_neg List.not_mem_nil) _
  rw [stage, ofLayers, unbound, length_initialLayers]
  rfl

/-- Only which layers are bound counts, not in which order they were. -/
theorem stage_perm {others : List Nat} (perm : done.Perm others) :
    stage sources done = stage sources others := by
  have same : inStage sources done = inStage sources others := by
    funext layer
    rw [inStage, inStage, if_congr perm.mem_iff rfl rfl]
  rw [stage, stage, perm.length_eq, same]

/-- A layer in a stage has the stamp, the source and the children that it had at first. -/
theorem inStage_cases (member : layer ∈ initialLayers sources) (done : List Nat) :
    ∃ source imports, layer.role = .initial source [] ∧
      (inStage sources done layer).role = .initial source imports ∧
      (inStage sources done layer).stamp = layer.stamp ∧
      ∀ phase, (inStage sources done layer).children phase = none := by
  obtain ⟨source, _, role⟩ := role_initialLayers member
  have leaf := leaf_initialLayers member
  rw [inStage, boundAlone]
  split
  · split
    · rw [Layer.withImports, role]
      exact ⟨source, _, rfl, Layer.role_withRole _ _, Layer.stamp_withRole _ _,
        fun phase => (Layer.children_withRole _ _ _).trans (leaf phase)⟩
    · exact ⟨source, [], role, role, rfl, leaf⟩
  · exact ⟨source, [], role, role, rfl, leaf⟩

theorem layers_stage (sources : List Source) (done : List Nat) :
    (stage sources done).layers =
      (initialLayers sources).map (inStage sources done) ++ [(stage sources done).root] := by
  refine layers_ofLayers fun layer member => ?_
  obtain ⟨initial, isInitial, rfl⟩ := List.mem_map.mp member
  obtain ⟨_, _, _, _, _, leaf⟩ := inStage_cases isInitial done
  exact leaf

/-! ### What a layer sees of the others -/

/-- The state of the layer itself is told from those of all others in every stage. -/
theorem isSame_inStage (pending : layer.stamp ∉ done) {other : Layer}
    (isOther : other ∈ initialLayers sources) :
    (inStage sources done other).isSame layer = other.isSame layer := by
  by_cases same : other.stamp = layer.stamp
  · rw [inStage, if_neg (same ▸ pending)]
  · obtain ⟨_, _, _, _, stamp, _⟩ := inStage_cases isOther done
    rw [Layer.isSame, Layer.isSame, stamp, beq_eq_false_iff_ne.mpr same, Bool.false_and,
      Bool.false_and]

/-- The sources that an unbound layer asks are in every stage its own and those of the others. -/
theorem askedSources_stage (pending : layer.stamp ∉ done) :
    (Lookup.ofLayer (stage sources done) layer none).askedSources =
      (layer :: (initialLayers sources).filter fun other => !other.isSame layer).filterMap
        (·.source?) := by
  have seen (other : Layer) (isOther : other ∈ initialLayers sources) :
      (inStage sources done other).source? = other.source? ∧
        (Lookup.ofLayer (stage sources done) layer none).isActiveSource
          (inStage sources done other) = true := by
    obtain ⟨source, imports, role, roleInStage, _⟩ := inStage_cases isOther done
    rw [Lookup.isActiveSource, Layer.isActive_eq, Layer.source?, Layer.source?, role, roleInStage]
    exact ⟨rfl, rfl⟩
  show (layer :: (stage sources done).layers.filter fun other => !other.isSame layer &&
    (Lookup.ofLayer (stage sources done) layer none).isActiveSource other).filterMap
      (·.source?) = _
  have notRoot : (Lookup.ofLayer (stage sources done) layer none).isActiveSource
      (stage sources done).root = false := rfl
  have kept : (initialLayers sources).filter ((fun other => !other.isSame layer &&
        (Lookup.ofLayer (stage sources done) layer none).isActiveSource other) ∘
          inStage sources done) =
      (initialLayers sources).filter fun other => !other.isSame layer :=
    List.filter_congr fun other isOther => by
      rw [Function.comp_apply, isSame_inStage pending isOther, (seen other isOther).2,
        Bool.and_true]
  have sameSources : ((initialLayers sources).filter fun other => !other.isSame layer).filterMap
        ((·.source?) ∘ inStage sources done) =
      ((initialLayers sources).filter fun other => !other.isSame layer).filterMap (·.source?) :=
    List.filterMap_congr fun other isOther => (seen other (List.mem_filter.mp isOther).1).1
  rw [layers_stage, List.filter_append, List.filter_singleton, notRoot, Bool.and_false,
    cond_false, List.append_nil, List.filter_map, kept, List.filterMap_cons,
    List.filterMap_cons, List.filterMap_map, sameSources]

/-- In every stage a layer that is not bound yet would be bound to the same imports. -/
theorem importsIn_stage (member : layer ∈ initialLayers sources) (pending : layer.stamp ∉ done) :
    (stage sources done).importsIn layer = (ofSources sources).importsIn layer := by
  obtain ⟨source, _, role⟩ := role_initialLayers member
  have holds : layer.source? = some source := by
    rw [Layer.source?, role]
    rfl
  have sameSources : (Lookup.ofLayer (stage sources done) layer none).askedSources =
      (Lookup.ofLayer (ofSources sources) layer none).askedSources := by
    rw [askedSources_stage pending, ← stage_nil, askedSources_stage List.not_mem_nil]
  have sameList : (Lookup.ofLayer (stage sources done) layer none).getList PropertyName.imports =
      (Lookup.ofLayer (ofSources sources) layer none).getList PropertyName.imports := by
    rw [Lookup.getList_focus rfl holds, Lookup.getList_focus rfl holds, sameSources]
  rw [importsIn, importsIn, Lookup.getImports, Lookup.getImports, sameList]

/-! ### One layer after the other -/

/-- A layer without children is replaced in its place among layers that are no states of it. -/
theorem replaceInAll?_leaf {target replacement : Layer} {earlier later : List Layer}
    (others : ∀ other ∈ earlier, other.isSame target = false)
    (leaves : ∀ other ∈ earlier, ∀ phase, other.children phase = none) :
    Layer.replaceInAll? target replacement (earlier ++ target :: later) =
      some (earlier ++ replacement :: later) := by
  have atTarget : Layer.replaceIn? target replacement target = some replacement := by
    obtain ⟨stamp, revision, role, before, after⟩ := target
    rw [Layer.replaceIn?, if_pos (Layer.isSame_self _)]
  induction earlier with
  | nil => rw [List.nil_append, Layer.replaceInAll?, atTarget]; rfl
  | cons first earlier inductionHypothesis =>
    have notFirst : Layer.replaceIn? target replacement first = none := by
      have isOther := others first List.mem_cons_self
      have noChildren := leaves first List.mem_cons_self
      obtain ⟨stamp, revision, role, before, after⟩ := first
      obtain rfl : before = none := noChildren .before
      obtain rfl : after = none := noChildren .after
      rw [Layer.replaceIn?, isOther]
      rfl
    rw [List.cons_append, Layer.replaceInAll?, notFirst,
      inductionHypothesis (fun other member => others other (List.mem_cons_of_mem _ member))
        fun other member => leaves other (List.mem_cons_of_mem _ member)]
    rfl

theorem stamp_initialLayers (member : layer ∈ initialLayers sources) : layer.stamp ≠ 0 := by
  have inStamps := List.mem_map_of_mem (f := Layer.stamp) member
  rw [initialLayers, stamps_freshLayers, List.mem_range'_1] at inStamps
  omega

/-- The layers of a stage around one that is not bound yet, and those of the stage with it bound. -/
theorem inStage_around (member : layer ∈ initialLayers sources) (pending : layer.stamp ∉ done) :
    ∃ earlier later,
      (initialLayers sources).map (inStage sources done) = earlier ++ layer :: later ∧
      (initialLayers sources).map (inStage sources (layer.stamp :: done)) =
        earlier ++ boundAlone sources layer :: later ∧
      ∀ other ∈ later, other.isSame layer = false ∧ ∀ phase, other.children phase = none := by
  obtain ⟨earlier, later, split⟩ := List.append_of_mem member
  have distinct := distinct_initialLayers sources
  rw [split, List.map_append, List.map_cons, List.nodup_middle, List.nodup_cons, List.mem_append,
    not_or] at distinct
  have stays {other : Layer} (different : other.stamp ≠ layer.stamp) :
      inStage sources (layer.stamp :: done) other = inStage sources done other := by
    rw [inStage, inStage, if_congr (by rw [List.mem_cons, or_iff_right different]) rfl rfl]
  have inEarlier : earlier.map (inStage sources (layer.stamp :: done)) =
      earlier.map (inStage sources done) := List.map_congr_left fun other isOther =>
    stays fun same => distinct.1.1 (same ▸ List.mem_map_of_mem isOther)
  have differs {other : Layer} (isOther : other ∈ later) : other.stamp ≠ layer.stamp :=
    fun same => distinct.1.2 (same ▸ List.mem_map_of_mem isOther)
  have inLater : later.map (inStage sources (layer.stamp :: done)) =
      later.map (inStage sources done) := List.map_congr_left fun other isOther =>
    stays (differs isOther)
  refine ⟨earlier.map (inStage sources done), later.map (inStage sources done), ?_, ?_, ?_⟩
  · rw [split, List.map_append, List.map_cons, inStage, if_neg pending]
  · rw [split, List.map_append, List.map_cons, inEarlier, inLater, inStage,
      if_pos List.mem_cons_self]
  · intro other isMapped
    obtain ⟨initial, isInitial, rfl⟩ := List.mem_map.mp isMapped
    have isGiven : initial ∈ initialLayers sources := by
      rw [split]
      exact List.mem_append_right _ (List.mem_cons_of_mem _ isInitial)
    obtain ⟨_, _, _, _, stamp, leaf⟩ := inStage_cases isGiven done
    refine ⟨?_, leaf⟩
    rw [Layer.isSame, stamp, beq_eq_false_iff_ne.mpr (differs isInitial), Bool.false_and]

/-- To put what a layer is bound to alone in its place leads from one stage to the next. -/
theorem replace_stage (member : layer ∈ initialLayers sources) (pending : layer.stamp ∉ done) :
    (stage sources done).replace layer (boundAlone sources layer) =
      stage sources (layer.stamp :: done) := by
  obtain ⟨earlier, later, before, after, others⟩ := inStage_around member pending
  have notRoot : (Layer.node 0 done.length .root (some (earlier ++ layer :: later).reverse)
      none).isSame layer = false := by
    rw [Layer.isSame, Bool.and_eq_false_iff, beq_eq_false_iff_ne]
    exact Or.inl (stamp_initialLayers member).symm
  have inReverse : Layer.replaceInAll? layer (boundAlone sources layer)
      (earlier ++ layer :: later).reverse =
        some (earlier ++ boundAlone sources layer :: later).reverse := by
    simp only [List.reverse_append, List.reverse_cons, List.append_assoc, List.singleton_append]
    exact replaceInAll?_leaf (fun other isOther => (others other (List.mem_reverse.mp isOther)).1)
      fun other isOther => (others other (List.mem_reverse.mp isOther)).2
  have length : (earlier ++ layer :: later).length =
      (earlier ++ boundAlone sources layer :: later).length := by
    rw [List.length_append, List.length_append, List.length_cons, List.length_cons]
  rw [stage, stage, before, after, ofLayers, ofLayers, replace, Layer.replaceIn?, notRoot,
    if_neg Bool.false_ne_true, Layer.replaceInPhase?, Layer.replaceInPhase?]
  dsimp only
  rw [inReverse, length]
  rfl

/-- To bind a layer in one stage leads to the next one, with what the layer is bound to alone. -/
theorem bindLayer_stage (member : layer ∈ initialLayers sources) (pending : layer.stamp ∉ done) :
    (stage sources done).bindLayer none layer =
      ((ofSources sources).importsIn layer).map fun _ => stage sources (layer.stamp :: done) := by
  obtain ⟨source, _, role⟩ := role_initialLayers member
  have isBind : (stage sources done).bindLayer none layer =
      ((stage sources done).importsIn layer).map fun imports =>
        (stage sources done).replace layer (layer.withImports imports) := by
    have withImports (imports : List Location) :
        layer.withImports imports = layer.withRole (.initial source imports) := by
      rw [Layer.withImports, role]
    simp only [bindLayer, Layer.bind, role, importsIn, withImports]
    cases (Lookup.ofLayer (stage sources done) layer none).getImports <;> rfl
  rw [isBind, importsIn_stage member pending, ← replace_stage member pending, boundAlone]
  cases (ofSources sources).importsIn layer <;> rfl

/-- To bind layers one after the other is to bind each of them alone. -/
theorem bindLayers_stage {layers : List Layer}
    (given : ∀ layer ∈ layers, layer ∈ initialLayers sources)
    (distinct : (layers.map Layer.stamp).Nodup)
    (pending : ∀ layer ∈ layers, layer.stamp ∉ done) :
    (stage sources done).bindLayers layers =
      (layers.mapM (ofSources sources).importsIn).map fun _ =>
        stage sources ((layers.map Layer.stamp).reverse ++ done) := by
  induction layers generalizing done with
  | nil => rfl
  | cons layer rest inductionHypothesis =>
    obtain ⟨notInRest, restDistinct⟩ := List.nodup_cons.mp distinct
    rw [bindLayers, bindLayer_stage (given layer List.mem_cons_self)
      (pending layer List.mem_cons_self), List.mapM_cons]
    cases (ofSources sources).importsIn layer with
    | error cause => rfl
    | ok imports =>
      have stillPending : ∀ other ∈ rest, other.stamp ∉ layer.stamp :: done := by
        intro other isOther bound
        rcases List.mem_cons.mp bound with same | isDone
        · exact notInRest (same ▸ List.mem_map_of_mem isOther)
        · exact pending other (List.mem_cons_of_mem _ isOther) isDone
      have others := inductionHypothesis
        (fun other isOther => given other (List.mem_cons_of_mem _ isOther)) restDistinct
        stillPending
      show (stage sources (layer.stamp :: done)).bindLayers rest = _
      rw [others, List.map_cons, List.reverse_cons, List.append_assoc, List.singleton_append]
      show _ = Except.map _ (rest.mapM (ofSources sources).importsIn >>= _)
      cases rest.mapM (ofSources sources).importsIn <;> rfl

/-! ### All of them -/

/-- One layer is another one with the imports that this is bound to while none is. -/
def BoundApart (sources : List Source) (layer new : Layer) : Prop :=
  ∃ imports, (ofSources sources).importsIn layer = .ok imports ∧ new = layer.withImports imports

/-- In whichever order the layers are bound, each is bound alone, and they come to one tree. -/
theorem bindLayers_perm {order : List Layer} (perm : order.Perm (initialLayers sources)) :
    (ofSources sources).bindLayers order =
      (order.mapM (ofSources sources).importsIn).map fun _ =>
        ofLayers sources.length ((initialLayers sources).map (boundAlone sources)) := by
  have stamps := perm.map Layer.stamp
  have allBound : stage sources ((order.map Layer.stamp).reverse ++ []) =
      ofLayers sources.length ((initialLayers sources).map (boundAlone sources)) := by
    rw [List.append_nil, stage_perm ((List.reverse_perm _).trans stamps), stage, List.length_map,
      length_initialLayers]
    congr 1
    exact List.map_congr_left fun layer member => if_pos (List.mem_map_of_mem member)
  rw [← stage_nil, bindLayers_stage (fun layer member => perm.mem_iff.mp member)
    (stamps.nodup_iff.mpr (distinct_initialLayers sources)) (fun _ _ => List.not_mem_nil), allBound,
    stage_nil]

theorem forall₂_boundApart {layers bound : List Layer} :
    List.Forall₂ (BoundApart sources) layers bound ↔
      (∀ layer ∈ layers, ∃ imports, (ofSources sources).importsIn layer = .ok imports) ∧
        bound = layers.map (boundAlone sources) := by
  have isBoundApart : BoundApart sources = fun layer new =>
      (∃ imports, (ofSources sources).importsIn layer = .ok imports) ∧
        boundAlone sources layer = new := by
    funext layer new
    rw [BoundApart, boundAlone]
    cases (ofSources sources).importsIn layer with
    | ok imports => simp [eq_comm]
    | error cause => simp
  rw [isBoundApart, List.forall₂_and_left, ← List.forall₂_map_left_iff, List.forall₂_eq_eq_eq,
    eq_comm (a := bound)]

end Stage

/-- The given sources are bound exactly if each of them is while no other one is. Then every layer
stays in its place and has the imports that it is bound to alone; the order in which they are bound
does not matter for that. Otherwise the error is that of the strongest layer that fails alone. -/
theorem each_bound_apart (sources : List Source) :
    ((∃ bound, ofBoundSources sources = .ok bound) ↔
      ∀ layer ∈ initialLayers sources,
        ∃ imports, (ofSources sources).importsIn layer = .ok imports) ∧
    (∀ bound, ofBoundSources sources = .ok bound ↔
      ∃ layers, List.Forall₂ (BoundApart sources) (initialLayers sources) layers ∧
        bound = ofLayers sources.length layers ∧ bound.layers = layers ++ [bound.root]) ∧
    (∀ order, order.Perm (initialLayers sources) → ∀ bound,
      (ofSources sources).bindLayers order = .ok bound ↔ ofBoundSources sources = .ok bound) ∧
    ∀ cause, ofBoundSources sources = .error cause ↔
      ∃ stronger layer weaker, initialLayers sources = stronger ++ layer :: weaker ∧
        (∀ other ∈ stronger, ∃ imports, (ofSources sources).importsIn other = .ok imports) ∧
        (ofSources sources).importsIn layer = .error cause := by
  have isBound := bindLayers_perm (List.Perm.refl (initialLayers sources))
  have succeeds (order : List Layer) (perm : order.Perm (initialLayers sources))
      (bound : LayerTree) : (ofSources sources).bindLayers order = .ok bound ↔
        (∀ layer ∈ initialLayers sources,
          ∃ imports, (ofSources sources).importsIn layer = .ok imports) ∧
        bound = ofLayers sources.length ((initialLayers sources).map (boundAlone sources)) := by
    rw [bindLayers_perm perm, map_eq_ok, exists_and_right, exists_mapM_eq_ok, eq_comm (a := bound)]
    exact and_congr_left fun _ => forall_congr' fun layer => imp_congr_left perm.mem_iff
  have leaves : ∀ layer ∈ (initialLayers sources).map (boundAlone sources),
      ∀ phase, layer.children phase = none := by
    intro layer member
    obtain ⟨initial, isInitial, rfl⟩ := List.mem_map.mp member
    obtain ⟨_, _, _, _, _, leaf⟩ := inStage_cases isInitial [initial.stamp]
    rwa [inStage, if_pos List.mem_cons_self] at leaf
  rw [ofBoundSources, filter_layers_ofSources]
  refine ⟨?_, fun bound => ?_, fun order perm bound => ?_, fun cause => ?_⟩
  · simp only [succeeds _ (List.Perm.refl _), exists_and_left, exists_eq, and_true]
  · rw [succeeds _ (List.Perm.refl _)]
    constructor
    · rintro ⟨eachBound, rfl⟩
      exact ⟨_, forall₂_boundApart.mpr ⟨eachBound, rfl⟩, rfl, layers_ofLayers leaves⟩
    · rintro ⟨layers, eachApart, isTree, _⟩
      obtain ⟨eachBound, rfl⟩ := forall₂_boundApart.mp eachApart
      exact ⟨eachBound, isTree⟩
  · rw [succeeds _ perm, succeeds _ (List.Perm.refl _)]
  · rw [isBound, map_eq_error, mapM_eq_error]

/-- Two sources that import what the other one names. -/
def crossedSources : List Source :=
  [.ofPairs "strong" [("config.import", "${place}.yml, ${rest}"), ("rest", "b")],
    .ofPairs "weak" [("place", "a"), ("config.import", "${rest:c}")]]

/-- Bound in either order, both sources have the imports that they are bound to alone. -/
theorem each_bound_apart_crossedSources :
    (initialLayers crossedSources).reverse.Perm (initialLayers crossedSources) ∧
    ∃ bound, ofBoundSources crossedSources = .ok bound ∧
      (ofSources crossedSources).bindLayers (initialLayers crossedSources).reverse = .ok bound ∧
      (initialLayers crossedSources).mapM (ofSources crossedSources).importsIn =
        .ok [[⟨"a.yml", false⟩, ⟨"b", false⟩], [⟨"b", false⟩]] := by
  have apart : (initialLayers crossedSources).mapM (ofSources crossedSources).importsIn =
      .ok [[⟨"a.yml", false⟩, ⟨"b", false⟩], [⟨"b", false⟩]] := by
    have strong : (Lookup.ofLayer (ofSources crossedSources)
        (initialLayers crossedSources)[0] none).getList PropertyName.imports =
          .ok (some ["a.yml", "b"]) :=
      Lookup.getList_of_getListWithin (by decide +kernel)
    have weak : (Lookup.ofLayer (ofSources crossedSources)
        (initialLayers crossedSources)[1] none).getList PropertyName.imports = .ok (some ["b"]) :=
      Lookup.getList_of_getListWithin (by decide +kernel)
    have isPair : initialLayers crossedSources =
      [(initialLayers crossedSources)[0], (initialLayers crossedSources)[1]] := rfl
    rw [isPair, List.mapM_cons, List.mapM_cons, importsIn, importsIn, Lookup.getImports,
      Lookup.getImports, strong, weak]
    exact ok_of_toOption (by decide +kernel)
  have perm := List.reverse_perm (initialLayers crossedSources)
  have separate := each_bound_apart crossedSources
  obtain ⟨bound, isBound⟩ := separate.1.mpr (exists_mapM_eq_ok.mp ⟨_, apart⟩)
  exact ⟨perm, bound, isBound, (separate.2.2.1 _ perm bound).mpr isBound, apart⟩

end LayerTree

end LayeredConfig
