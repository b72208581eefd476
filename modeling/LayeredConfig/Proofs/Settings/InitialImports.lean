/-
This file shows that the imports of settings are bound to what they were set to.

Settings declare their imports in a source of their own, each under a key with its number. The view
of this source finds a text by its number again and has neither a scalar nor a further element for
the list, so the list is read as long as it was written. No item is cut or trimmed on the way, as
the parts of a scalar are; and since the check has read each of them as a location, binding the
source cannot fail.
-/

import LayeredConfig.Proofs.Growth.Separate
import LayeredConfig.Proofs.Lookup.Given
import LayeredConfig.Proofs.Property.Settling
import LayeredConfig.Proofs.Settings.Acceptance

namespace LayeredConfig

open Text

/-! ### Lists under numbered keys -/

/-- A name with a number behind it is another name. -/
theorem ne_elementName (name : String) (index : Nat) : name ≠ elementName name index := by
  intro same
  have longer := congrArg String.toList same
  rw [elementName, toList_element, List.self_eq_append_right] at longer
  cases longer

namespace Source

/-- The pairs of a list in which each text has a key with its number. -/
def numbered (name : String) (texts : List String) : List (String × String) :=
  texts.zipIdx.map fun (text, index) => (elementName name index, text)

section Numbered

variable {name : String} {texts : List String}

theorem keys_numbered (name : String) (texts : List String) :
    (numbered name texts).map Prod.fst = (List.range texts.length).map (elementName name) := by
  rw [numbered, List.map_map, List.range_eq_range', ← List.zipIdx_map_snd, List.map_map]
  rfl

theorem nodup_keys_numbered : ((numbered name texts).map Prod.fst).Nodup := by
  rw [keys_numbered]
  exact List.nodup_range.map (View.elementName_injective name)

theorem mem_numbered {index : Nat} {text : String} :
    (elementName name index, text) ∈ numbered name texts ↔ texts[index]? = some text := by
  rw [numbered, List.mem_map]
  constructor
  · rintro ⟨⟨held, position⟩, isHeld, same⟩
    obtain ⟨sameKey, rfl⟩ := Prod.mk.inj same
    rw [← View.elementName_injective name sameKey]
    exact List.mem_zipIdx_iff_getElem?.mp isHeld
  · intro isText
    exact ⟨(text, index), List.mem_zipIdx_iff_getElem?.mpr isText, rfl⟩

theorem lookup_numbered (index : Nat) :
    (numbered name texts).lookup (elementName name index) = texts[index]? :=
  Option.ext fun _ => (lookup_eq_some_iff_mem nodup_keys_numbered).trans mem_numbered

variable (whole : trimmed name = name) (title : String)

include whole

/-- The view of such a source has the same list under the canonical name. -/
theorem get?_numbered (asked : String) :
    (ofPairs title (numbered name texts)).view.get? asked =
      (numbered (canonical name) texts).lookup (canonical asked) := by
  rw [view, View.get?_ofEntries, entries_ofPairs title nodup_keys_numbered]
  refine congrArg (List.lookup (canonical asked)) ?_
  rw [numbered, numbered, List.map_map]
  exact List.map_congr_left fun item _ =>
    congrArg (·, item.1) (View.canonical_elementName whole item.2)

theorem element?_numbered (index : Nat) :
    (ofPairs title (numbered name texts)).view.element? name index = texts[index]? := by
  rw [← View.get?_elementName whole, get?_numbered whole, View.canonical_elementName whole,
    lookup_numbered]

theorem noScalar_numbered : (ofPairs title (numbered name texts)).view.get? name = none := by
  rw [get?_numbered whole, List.lookup_eq_none_iff]
  intro entry member
  obtain ⟨⟨_, index⟩, _, rfl⟩ := List.mem_map.mp member
  exact bne_iff_ne.mpr (ne_elementName (canonical name) index)

theorem runs_numbered (fits : texts.length ≤ 0x10000000000000000) :
    (ofPairs title (numbered name texts)).Runs name texts.length := by
  have isKey (key : String) : key ∈ (ofPairs title (numbered name texts)).keys ↔
      ∃ position < texts.length, elementName name position = key := by
    rw [keys, entries_ofPairs title nodup_keys_numbered, keys_numbered]
    simp
  intro index
  rw [hasElement_iff whole, mem_names_view]
  constructor
  · rintro ⟨_, _, inKeys, same⟩
    obtain ⟨position, below, rfl⟩ := (isKey _).mp inKeys
    rw [View.canonical_elementName whole] at same
    exact ⟨position, below, View.index_inj.mp same⟩
  · rintro ⟨position, below, rfl⟩
    rw [View.readIndex?_toString (below.trans_le fits)]
    exact ⟨rfl, _, (isKey _).mpr ⟨position, below, rfl⟩, View.canonical_elementName whole position⟩

/-- A source that is alone lists the texts that it has under numbered keys, if they hold no
placeholder. -/
theorem getList_numbered (isSome : texts ≠ []) (fits : texts.length ≤ 0x10000000000000000)
    (unopened : ∀ text ∈ texts, Placeholder.occursIn text = false) :
    SourceList.getList [ofPairs title (numbered name texts)] name = .ok (some texts) := by
  refine SourceList.getList_of_runs whole (noScalar_numbered whole title) isSome
    (runs_numbered whole title fits) fun position inside => ⟨?_, ?_⟩
  · rw [element?_numbered whole, List.getElem?_eq_getElem inside]
  · exact unopened _ (List.getElem_mem inside)

end Numbered

end Source

/-! ### Locations -/

theorem Lookup.readLocations_eq (declared : List String) :
    readLocations declared = declared.mapM Location.read := by
  induction declared with
  | nil => rfl
  | cons first rest inductionHypothesis =>
    rw [readLocations, List.mapM_cons, inductionHypothesis]

/-- What passes the check of the imports is read as a location. -/
theorem Settings.read_of_checkImports {seen : List String} {items : List (String × Nat)}
    (accepted : checkImports seen items = .ok ()) :
    ∀ item ∈ items, ∃ location, Location.read item.1 = .ok location := by
  induction items generalizing seen with
  | nil => exact nofun
  | cons item rest inductionHypothesis =>
    obtain ⟨declared, index⟩ := item
    unfold checkImports at accepted
    cases isRead : Location.read declared with
    | error cause =>
      rw [isRead] at accepted
      cases accepted
    | ok location =>
      rw [isRead] at accepted
      dsimp only at accepted
      split at accepted
      · cases accepted
      · exact List.forall_mem_cons.mpr ⟨⟨location, isRead⟩, inductionHypothesis accepted⟩

/-! ### One source alone -/

namespace LayerTree

/-- The layer of the only source. -/
def loneLayer (source : Source) : Layer :=
  .node 1 0 (.initial source []) none none

theorem initialLayers_singleton (source : Source) : initialLayers [source] = [loneLayer source] :=
  rfl

/-- While it is bound, the only layer asks nothing but its source. -/
theorem importsIn_loneLayer (source : Source) :
    (ofSources [source]).importsIn (loneLayer source) =
      (SourceList.getList [source] PropertyName.imports).bind fun declared =>
        Lookup.readLocations (declared.getD []) := by
  have asked : (Lookup.ofLayer (ofSources [source]) (loneLayer source) none).askedSources =
      [source] := by
    rw [← stage_nil, askedSources_stage List.not_mem_nil, initialLayers_singleton, List.filter_cons,
      Layer.isSame_self]
    rfl
  rw [importsIn, Lookup.getImports, Lookup.getList_focus rfl rfl, asked, SourceList.getList,
    List.find?_cons]
  cases source.view.declares PropertyName.imports <;> rfl

/-- To bind a source alone leads to its layer, with the imports that the source declares. -/
theorem ofBoundSources_singleton (source : Source) :
    ofBoundSources [source] = ((ofSources [source]).importsIn (loneLayer source)).map
      fun imports => ofLayers 1 [(loneLayer source).withImports imports] := by
  rw [ofBoundSources, filter_layers_ofSources, bindLayers_perm (List.Perm.refl _),
    initialLayers_singleton, List.mapM_cons, List.map_singleton, boundAlone]
  cases (ofSources [source]).importsIn (loneLayer source) <;> rfl

/-- A source that lists texts which are read as locations can be bound alone. -/
theorem ofBoundSources_of_list {source : Source} {texts : List String} {imports : List Location}
    (isList : SourceList.getList [source] PropertyName.imports = .ok (some texts))
    (areRead : texts.mapM Location.read = .ok imports) :
    ofBoundSources [source] = .ok (ofLayers 1 [(loneLayer source).withImports imports]) := by
  rw [ofBoundSources_singleton, importsIn_loneLayer, isList]
  show Except.map _ (Lookup.readLocations texts) = _
  rw [Lookup.readLocations_eq, areRead]
  rfl

theorem layers_loneLayer (source : Source) (imports : List Location) :
    (ofLayers 1 [(loneLayer source).withImports imports]).layers =
      [(loneLayer source).withImports imports,
        (ofLayers 1 [(loneLayer source).withImports imports]).root] :=
  layers_ofLayers (List.forall_mem_singleton.mpr fun phase => by cases phase <;> rfl)

end LayerTree

/-! ### The imports of settings -/

namespace Settings

variable {settings : Settings}

theorem initialSource?_eq (isSome : settings.importList ≠ []) :
    settings.initialSource? = some (Source.ofPairs sourceName
      (Source.numbered PropertyName.imports settings.importList)) :=
  if_neg (mt List.isEmpty_iff.mp isSome)

/-- If settings pass the check and set imports without placeholders, then the source that declares
them can be bound alone. Its layer, the only one beside the root, has as imports what the single
texts are read as, each of them whole and in their order. No list of imports is longer than a
machine word can count. -/
theorem binds_imports_as_set (accepted : settings.check = .ok ())
    (isSome : settings.importList ≠ [])
    (fits : settings.importList.length ≤ 0x10000000000000000)
    (unopened : ∀ declared ∈ settings.importList, Placeholder.occursIn declared = false) :
    ∃ source tree layer imports, settings.initialSource? = some source ∧
      LayerTree.ofBoundSources [source] = .ok tree ∧ tree.layers = [layer, tree.root] ∧
      layer.role = .initial source imports ∧
      List.Forall₂ (fun declared location => Location.read declared = .ok location)
        settings.importList imports := by
  have readable : ∀ declared ∈ settings.importList,
      ∃ location, Location.read declared = .ok location := by
    intro declared member
    rw [← List.zipIdx_map_fst 0 settings.importList] at member
    obtain ⟨item, isItem, rfl⟩ := List.mem_map.mp member
    exact read_of_checkImports (check_eq_ok.mp accepted).1.imports item isItem
  obtain ⟨imports, areRead⟩ := exists_mapM_eq_ok.mpr readable
  have whole : trimmed PropertyName.imports = PropertyName.imports := by decide
  have isList := Source.getList_numbered whole sourceName isSome fits unopened
  exact ⟨_, _, _, imports, initialSource?_eq isSome,
    LayerTree.ofBoundSources_of_list isList areRead, LayerTree.layers_loneLayer _ imports, rfl,
    mapM_eq_ok.mp areRead⟩

/-- Settings with imports that have commas and blanks in them, the second of them optional. -/
def commaSettings : Settings :=
  { empty with imports := some [" a.yml, b.yml ", "optional: classpath:c,d"] }

/-- Both are bound as one location each. -/
theorem binds_imports_as_set_commaSettings :
    commaSettings.check = .ok () ∧ commaSettings.importList ≠ [] ∧
    (∀ declared ∈ commaSettings.importList, Placeholder.occursIn declared = false) ∧
    ∃ source tree layer, commaSettings.initialSource? = some source ∧
      LayerTree.ofBoundSources [source] = .ok tree ∧ tree.layers = [layer, tree.root] ∧
      layer.imports = [⟨"a.yml, b.yml", false⟩, ⟨"classpath:c,d", true⟩] := by
  have accepted : commaSettings.check = .ok () :=
    check_eq_ok.mpr ⟨⟨nofun, by decide +kernel⟩, nofun⟩
  have unopened : ∀ declared ∈ commaSettings.importList,
      Placeholder.occursIn declared = false := by decide
  obtain ⟨source, tree, layer, imports, isSource, isBound, layers, role, areRead⟩ :=
    binds_imports_as_set accepted (by decide) (by decide) unopened
  refine ⟨accepted, by decide, unopened, source, tree, layer, isSource, isBound, layers, ?_⟩
  have areImports : commaSettings.importList.mapM Location.read =
      .ok [⟨"a.yml, b.yml", false⟩, ⟨"classpath:c,d", true⟩] :=
    ok_of_toOption (by decide +kernel)
  rw [Layer.imports, role, Role.imports]
  exact Except.ok.inj ((mapM_eq_ok.mpr areRead).symm.trans areImports)

end Settings

end LayeredConfig
