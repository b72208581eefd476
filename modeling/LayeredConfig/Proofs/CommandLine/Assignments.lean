/-
This file says what becomes of the properties that are set on the command line.

They make up the strongest given source. The layer of that source takes part whatever the profiles
are, and nothing stands in front of it but what it imports itself. So a property that is set has the
value of a setting of that name, unless `config.import` is set too and an import holds the property:
then the import wins, as imports win over the layer that declares them everywhere else.
-/

import LayeredConfig.CommandLine.Session
import LayeredConfig.Proofs.Lookup.SourceList
import LayeredConfig.Proofs.Property.Pairs
import LayeredConfig.Proofs.Resolution.Front

namespace LayeredConfig

/-! ### Resolving for a command -/

/-- A command in two parts succeeds only if both do. -/
theorem Execution.ok_of_bind {First Second : Type} {first : Execution First}
    {next : First → Execution Second} {printed : Printed} {value : Second}
    (succeeded : ((first >>= next) printed).1 = .ok value) :
    ∃ middle later, first printed = (.ok middle, later) ∧ (next middle later).1 = .ok value := by
  have whole : (first >>= next) printed =
      ExceptT.bindCont next (first printed).1 (first printed).2 := rfl
  rw [whole] at succeeded
  rcases ended : first printed with ⟨failure | middle, later⟩
  · rw [ended] at succeeded
    cases succeeded
  · rw [ended] at succeeded
    exact ⟨middle, later, rfl, succeeded⟩

namespace GlobalOptions

variable {options : GlobalOptions} {world : World} {configuration : Configuration}

theorem run_of_resolve (succeeded : (options.resolve world).result.1 = .ok configuration) :
    ∃ prepared, options.prepare world = .ok prepared ∧
      prepared.run.outcome = .ok configuration := by
  obtain ⟨prepared, _, isPrepared, succeeded⟩ := Execution.ok_of_bind succeeded
  refine ⟨prepared, congrArg Prod.fst isPrepared, ?_⟩
  have resolves {printed : Printed}
      (succeeded : ((do
        let configuration ← Execution.ofRun (options.logLevel world) prepared.run
        Execution.note (options.logLevel world) .debug
          ("Resolved " ++ toString configuration.sources.length ++
            " property source(s) with profiles " ++
            Text.bracketed configuration.profiles.accepted)
        return configuration : Execution Configuration) printed).1 = .ok configuration) :
      prepared.run.outcome = .ok configuration := by
    obtain ⟨resolved, _, isResolved, succeeded⟩ := Execution.ok_of_bind succeeded
    obtain ⟨_, _, _, succeeded⟩ := Execution.ok_of_bind succeeded
    obtain rfl := Except.ok.inj succeeded
    exact mapError_eq_ok.mp (congrArg Prod.fst isResolved)
  split at succeeded
  · obtain ⟨_, _, _, succeeded⟩ := Execution.ok_of_bind succeeded
    exact resolves succeeded
  · exact resolves succeeded

/-- The properties that are set come before the imports of the settings. -/
theorem initial_of_prepare {prepared : Prepared}
    (isPrepared : options.prepare world = .ok prepared) :
    prepared.initial = options.source?.toList ++ prepared.settings.initialSource?.toList := by
  obtain ⟨_, _, isPrepared⟩ := bind_eq_ok.mp isPrepared
  obtain ⟨_, _, isPrepared⟩ := bind_eq_ok.mp isPrepared
  cases isPrepared
  rfl

theorem source_of_assigned {key value : String} (assigned : (key, value) ∈ options.assignments) :
    options.source? =
      some ((Source.ofPairs sourceName options.assignments).withOrigin sourceOrigin) := by
  rw [source?, if_neg]
  rw [List.isEmpty_iff]
  exact List.ne_nil_of_mem assigned

end GlobalOptions

/-! ### The strongest given layer in a lookup -/

namespace Configuration

variable {configuration : Configuration}

/-- The value of a property in the layers below a layer that take part. -/
def valueBelow? (configuration : Configuration) (layer : Layer) (name : String) : Option String :=
  (layer.descendants.filter (·.isActive configuration.known)).findSome? (·.value? name)

theorem findSome?_lookup (name : String) :
    configuration.lookup.candidates.findSome? (·.value? name) =
      (configuration.tree.layers.filter (·.isActive configuration.known)).findSome?
        (·.value? name) := by
  rw [Lookup.findSome?_candidates, sources_lookup, Lookup.findSome?_layers]
  rfl

/-- A property that a layer holds has the value of the layer if nothing comes before the layer but
what is below it, and if nothing of this holds the property. -/
theorem get_of_front {layer : Layer} {back : List Layer} {source : Source}
    {imports : List Location} {name raw : String}
    (front : configuration.tree.layers = layer.descendants ++ [layer] ++ back)
    (role : layer.role = .initial source imports) (holds : source.view.get? name = some raw) :
    configuration.get name = (configuration.lookup.expanded name
      ((configuration.valueBelow? layer name).getD raw)).map some := by
  have active : layer.isActive configuration.known = true := by
    rw [Layer.isActive, role]
  have value : layer.value? name = some raw := by
    rw [Layer.value?, Layer.source?, role]
    exact holds
  have found : configuration.lookup.candidates.findSome? (·.value? name) =
      some ((configuration.valueBelow? layer name).getD raw) := by
    rw [findSome?_lookup, front, List.filter_append, List.filter_append, List.findSome?_append,
      List.findSome?_append, List.filter_singleton, active, cond_true, List.findSome?_singleton,
      value, valueBelow?]
    cases (layer.descendants.filter (·.isActive configuration.known)).findSome?
      (·.value? name) <;> rfl
  rw [get, Lookup.get, found]
  rfl

end Configuration

/-! ### Properties that are set -/

namespace GlobalOptions

variable {options : GlobalOptions} {world : World} {configuration : Configuration}

/-- If the resolution for a command succeeds, nothing stands in front of the layer of the properties
that are set but what this layer imports. A property that is set has, with its placeholders
expanded, the value that is set for its name, unless what the layer imports holds the property; and
it has the value that is set if no imports are. -/
theorem assigned_unless_imported (succeeded : (options.resolve world).result.1 = .ok configuration)
    {key value : String} (assigned : (key, value) ∈ options.assignments) :
    ∃ layer back held, configuration.tree.layers = layer.descendants ++ [layer] ++ back ∧
      layer.source? = options.source? ∧
      held ∈ options.assignments ∧ canonical held.1 = canonical key ∧
      configuration.get key = (configuration.lookup.expanded key
        ((configuration.valueBelow? layer key).getD held.2)).map some ∧
      ((∀ other ∈ options.assignments, View.declaredBy PropertyName.imports other.1 = false) →
        configuration.get key = (configuration.lookup.expanded key held.2).map some) := by
  obtain ⟨prepared, isPrepared, resolved⟩ := run_of_resolve succeeded
  have isSource := source_of_assigned assigned
  have initial := initial_of_prepare isPrepared
  rw [isSource] at initial
  rw [Prepared.run, initial] at resolved
  obtain ⟨reached, _⟩ := (Configuration.ends_resolve _ _ _).of_ok resolved
  obtain ⟨layer, back, front, ⟨imports, role⟩, silent⟩ := reached.front
  obtain ⟨held, isAssigned, sameName, holds⟩ := Source.get?_of_pair sourceName assigned
  have value := Configuration.get_of_front front role holds
  refine ⟨layer, back, held, front, ?_, isAssigned, sameName, value, fun noImports => ?_⟩
  · rw [isSource, Layer.source?, role]
    rfl
  · have leaf := silent (Source.not_declares_ofPairs sourceName noImports)
    rw [Configuration.valueBelow?, leaf] at value
    exact value

/-- The options that set the given properties and import the given locations. -/
def setting (assignments : List (String × String)) (imports : List String) : GlobalOptions where
  verbose := false
  quiet := false
  settingsFile := none
  settingsDirectory := none
  profiles := []
  defaultProfiles := []
  onMissing := none
  assignments := assignments
  imports := imports

/-- A working directory with one file, which holds another value of the property `a`. -/
def worldWithFile : World where
  files := FileSystem.empty.addFile ["app.properties"] "a=2".toUTF8
  workingDirectory := some "/"
  home := "/root"
  environment := []

/-- What the settings import does not change the property, and what is imported by setting
`config.import` does. -/
theorem assigned_unless_imported_worldWithFile :
    (∃ configuration, ((setting [("A", "1")] ["app.properties"]).resolve worldWithFile).result.1 =
        .ok configuration ∧
      (∀ other ∈ [("A", "1")], View.declaredBy PropertyName.imports other.1 = false) ∧
      configuration.get "a" = .ok (some "1") ∧
      configuration.get "A" = (configuration.lookup.expanded "A" "1").map some) ∧
    ∃ configuration, ((setting [("config.import", "app.properties"), ("a", "1")] []).resolve
        worldWithFile).result.1 = .ok configuration ∧
      configuration.get "a" = .ok (some "2") ∧
      ∃ layer held, held ∈ [("config.import", "app.properties"), ("a", "1")] ∧
        canonical held.1 = canonical "a" ∧ configuration.get "a" =
          (configuration.lookup.expanded "a"
            ((configuration.valueBelow? layer "a").getD held.2)).map some := by
  constructor
  · have resolves : ((setting [("A", "1")] ["app.properties"]).resolve
        worldWithFile).result.1.toOption.map (fun configuration =>
          (configuration.get "a").toOption) = some (some (some "1")) := by
      decide +kernel
    obtain ⟨configuration, succeeded, answered⟩ := exists_ok_of_map resolves
    have noImports : ∀ other ∈ [("A", "1")],
        View.declaredBy PropertyName.imports other.1 = false := by
      decide +kernel
    obtain ⟨_, _, held, _, _, isAssigned, _, _, value⟩ :=
      assigned_unless_imported succeeded (show ("A", "1") ∈ _ from List.mem_cons_self)
    rw [List.mem_singleton.mp isAssigned] at value
    exact ⟨configuration, succeeded, noImports, ok_of_toOption answered, value noImports⟩
  · have resolves : ((setting [("config.import", "app.properties"), ("a", "1")] []).resolve
        worldWithFile).result.1.toOption.map (fun configuration =>
          (configuration.get "a").toOption) = some (some (some "2")) := by
      decide +kernel
    obtain ⟨configuration, succeeded, answered⟩ := exists_ok_of_map resolves
    obtain ⟨layer, _, held, _, _, isAssigned, sameName, value, _⟩ :=
      assigned_unless_imported succeeded
        (show ("a", "1") ∈ _ from List.mem_cons_of_mem _ List.mem_cons_self)
    exact ⟨configuration, succeeded, ok_of_toOption answered, layer, held, isAssigned, sameName,
      value⟩

/-- A property that is set does not keep its value if what `config.import` names holds it too. -/
theorem assignment_lost_to_import :
    ¬ ∀ (options : GlobalOptions) (world : World) (configuration : Configuration),
      (options.resolve world).result.1 = .ok configuration →
      ∀ assigned ∈ options.assignments, ∃ held ∈ options.assignments,
        canonical held.1 = canonical assigned.1 ∧ configuration.get assigned.1 =
          (configuration.lookup.expanded assigned.1 held.2).map some := by
  intro keeps
  have resolves : ((setting [("config.import", "app.properties"), ("a", "1")] []).resolve
      worldWithFile).result.1.toOption.map (fun configuration =>
        ((configuration.get "a").toOption,
          (configuration.lookup.expanded "a" "1").toOption)) =
      some (some (some "2"), some "1") := by
    decide +kernel
  obtain ⟨configuration, succeeded, both⟩ := exists_ok_of_map resolves
  obtain ⟨answered, expands⟩ := Prod.mk.inj both
  obtain ⟨held, isAssigned, sameName, value⟩ := keeps _ _ configuration succeeded ("a", "1")
    (List.mem_cons_of_mem _ List.mem_cons_self)
  rcases List.mem_cons.mp isAssigned with rfl | isOther
  · exact absurd sameName (by decide +kernel)
  · rw [List.mem_singleton.mp isOther] at value
    rw [ok_of_toOption answered, ok_of_toOption expands] at value
    exact absurd (Option.some.inj (Except.ok.inj value)) (by decide)

end GlobalOptions

end LayeredConfig
