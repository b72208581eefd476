/-
This file shows that hidden sources cannot be told apart from outside.

Two repositories are alike for some profiles if their readers read the same, up to what sources
that are hidden from the profiles hold beside their steering properties. Resolutions from both grow
trees that are the same behind the veil. So they compute the profiles from the same active sources,
and in the end the same sources take part; and no answer depends on more than these. All this is for
two resolutions that succeed. What a hidden source holds may decide whether one does, since profiles
are computed by a lookup that refuses what inactive layers declare.
-/

import LayeredConfig.Proofs.Import.Table
import LayeredConfig.Proofs.Profile.Choice
import LayeredConfig.Proofs.Veil.Growth
import Mathlib.Data.List.Forall2

namespace LayeredConfig

/-! ### Repositories that are alike -/

/-- Bundles of one kind whose sources are alike, one by one. -/
structure Bundle.Alike (profiles : Profiles) (first second : Bundle) : Prop where
  profileSpecific : second.profileSpecific = first.profileSpecific
  sources : List.Forall₂ (Source.Alike profiles) first.sources second.sources

/-- Readers that fail alike and otherwise read bundles that are alike. -/
structure Reader.Alike (profiles : Profiles) (first second : Reader) : Prop where
  name : second.name = first.name
  takes : second.takes = first.takes
  read : ∀ resource,
    (∃ cause, first.read resource = .error cause ∧ second.read resource = .error cause) ∨
      ∃ bundle other, first.read resource = .ok bundle ∧ second.read resource = .ok other ∧
        bundle.Alike profiles other

/-- Repositories that differ only in what hidden sources hold. -/
structure Repository.Alike (profiles : Profiles) (first second : Repository) : Prop where
  finders : second.finders = first.finders
  readers : List.Forall₂ (Reader.Alike profiles) first.readers second.readers
  policy : second.policy = first.policy
  stepLimit : second.stepLimit = first.stepLimit

section Alike

variable {profiles : Profiles}

theorem map_eq_of_forall₂ {Element Value : Type} {related : Element → Element → Prop}
    (read : Element → Value) (same : ∀ first second, related first second →
      read second = read first) {first second : List Element}
    (all : List.Forall₂ related first second) : second.map read = first.map read := by
  induction all with
  | nil => rfl
  | cons head _ inductionHypothesis =>
    rw [List.map_cons, List.map_cons, same _ _ head, inductionHypothesis]

theorem Bundle.Alike.veil_eq {first second : Bundle} (alike : first.Alike profiles second) :
    second.mapSources (Source.veil profiles) = first.mapSources (Source.veil profiles) := by
  rw [mapSources, mapSources, alike.profileSpecific,
    map_eq_of_forall₂ (Source.veil profiles) (fun _ _ => Source.Alike.veil_eq) alike.sources]

theorem Reader.Alike.veil_eq {first second : Reader} (alike : first.Alike profiles second) :
    second.mapSources (Source.veil profiles) = first.mapSources (Source.veil profiles) := by
  have sameRead : (fun resource => (second.read resource).map
      (Bundle.mapSources (Source.veil profiles))) = fun resource => (first.read resource).map
        (Bundle.mapSources (Source.veil profiles)) := by
    funext resource
    rcases alike.read resource with ⟨cause, one, other⟩ | ⟨bundle, another, one, other, bundles⟩
    · rw [one, other]
    · rw [one, other]
      exact congrArg Except.ok bundles.veil_eq
  rw [mapSources, mapSources, sameRead, alike.name, alike.takes]

/-- Behind the veil, repositories that are alike are the same. -/
theorem Repository.Alike.veil_eq {first second : Repository}
    (alike : first.Alike profiles second) :
    second.mapSources (Source.veil profiles) = first.mapSources (Source.veil profiles) := by
  rw [mapSources, mapSources, alike.finders, alike.policy, alike.stepLimit,
    map_eq_of_forall₂ (Reader.mapSources (Source.veil profiles))
      (fun _ _ => Reader.Alike.veil_eq) alike.readers]

/-- Tables with the same names, and with bundles that are alike. -/
def AlikeTables (profiles : Profiles) : List (String × Bundle) → List (String × Bundle) → Prop :=
  List.Forall₂ fun entry other => other.1 = entry.1 ∧ entry.2.Alike profiles other.2

theorem AlikeTables.lookup {first second : List (String × Bundle)}
    (alike : AlikeTables profiles first second) (name : String) :
    (first.lookup name = none ∧ second.lookup name = none) ∨
      ∃ bundle other, first.lookup name = some bundle ∧ second.lookup name = some other ∧
        bundle.Alike profiles other := by
  induction alike with
  | nil => exact Or.inl ⟨rfl, rfl⟩
  | @cons entry other _ _ head _ inductionHypothesis =>
    obtain ⟨key, bundle⟩ := entry
    obtain ⟨otherKey, another⟩ := other
    obtain ⟨sameKey, bundles⟩ := head
    obtain rfl : otherKey = key := sameKey
    rw [List.lookup_cons, List.lookup_cons]
    cases name == otherKey with
    | true => exact Or.inr ⟨bundle, another, rfl, rfl, bundles⟩
    | false => exact inductionHypothesis

/-- Tables that are alike make repositories that are alike. -/
theorem Repository.alike_ofTable {first second : List (String × Bundle)}
    (alike : AlikeTables profiles first second) :
    (ofTable first).Alike profiles (ofTable second) := by
  have sameNames : second.map Prod.fst = first.map Prod.fst :=
    map_eq_of_forall₂ Prod.fst (fun _ _ both => both.1) alike
  have sameFinder : inTable second = inTable first := by
    funext location name profile
    rw [inTable, inTable, sameNames]
  refine ⟨?_, .cons ⟨rfl, rfl, fun resource => ?_⟩ .nil, rfl, rfl⟩
  · rw [ofTable, ofTable, tableFinder, tableFinder, sameFinder]
  · rw [tableReader, tableReader]
    dsimp only
    rcases alike.lookup resource.id with ⟨one, other⟩ | ⟨bundle, another, one, other, bundles⟩
    · rw [one, other]
      exact Or.inl ⟨_, rfl, rfl⟩
    · rw [one, other]
      exact Or.inr ⟨bundle, another, rfl, rfl, bundles⟩

end Alike

/-! ### Two resolutions -/

namespace LayerTree

/-- Two trees that are the same behind the veil, and that both keep their hidden layers out. -/
structure SameBehind (profiles : Profiles) (known : Option Profiles) (first second : LayerTree) :
    Prop where
  veil_eq : second.mapSources (Source.veil profiles) = first.mapSources (Source.veil profiles)
  sound : first.Sound known ∧ second.Sound known
  keptOut : first.KeptOut profiles ∧ second.KeptOut profiles

section SameBehind

variable {profiles : Profiles} {known : Option Profiles} {repository other : Repository}
  {first second final otherFinal : LayerTree}

theorem SameBehind.grow (same : SameBehind profiles known first second)
    (fits : known = none ∨ known = some profiles) (alike : repository.Alike profiles other)
    (grown : (first.grow repository known).outcome = .ok final)
    (otherGrown : (second.grow other known).outcome = .ok otherFinal) :
    SameBehind profiles known final otherFinal := by
  refine ⟨?_, ⟨sound_grow same.sound.1 grown, sound_grow same.sound.2 otherGrown⟩,
    ⟨same.keptOut.1.growFrom same.sound.1 grown, same.keptOut.2.growFrom same.sound.2 otherGrown⟩⟩
  have veiled := grow_veil repository same.keptOut.1 same.sound.1 fits
  have otherVeiled := grow_veil other same.keptOut.2 same.sound.2 fits
  rw [alike.veil_eq, same.veil_eq, veiled, grown, otherGrown] at otherVeiled
  exact (Except.ok.inj otherVeiled).symm

theorem SameBehind.learn (same : SameBehind profiles none first second) (learned : Profiles) :
    SameBehind profiles (some learned) first second :=
  ⟨same.veil_eq, ⟨same.sound.1.learn learned, same.sound.2.learn learned⟩, same.keptOut⟩

theorem SameBehind.activeSources_eq (same : SameBehind profiles known first second)
    (fits : known = none ∨ known = some profiles) :
    second.activeSources known = first.activeSources known := by
  rw [← same.keptOut.2.activeSources_eq fits, same.veil_eq, same.keptOut.1.activeSources_eq fits]

/-- The tree that a resolution starts with has no hidden layers. -/
theorem sameBehind_start {sources : List Source} {tree : LayerTree}
    (bound : ofBoundSources sources = .ok tree) (profiles : Profiles) :
    SameBehind profiles none tree tree := by
  have sound := (start_of_ofBoundSources bound).1
  have keptOut : tree.KeptOut profiles := by
    intro entry member isFound
    rcases entry_start bound member with ⟨_, source, imports, role⟩ | ⟨_, role⟩
    all_goals
      rw [role] at isFound
      cases isFound
  exact ⟨rfl, ⟨sound, sound⟩, ⟨keptOut, keptOut⟩⟩

end SameBehind

end LayerTree

/-! ### Profiles -/

namespace Lookup

section Profiles

variable {lookup other : Lookup} {tree : LayerTree} {known : Option Profiles}

theorem computeProfiles_congr (same : ∀ name, other.getList name = lookup.getList name)
    (request : ProfileRequest) :
    other.computeProfiles request = lookup.computeProfiles request := by
  have sameProfiles (name : String) : other.getProfiles name = lookup.getProfiles name := by
    rw [getProfiles, getProfiles, same]
  simp only [computeProfiles, selectProfiles, sameProfiles]

theorem refusedOr_getProfiles (name : String) :
    RefusedOr ((overTree tree known .strict).getProfiles name)
      ((overTree tree known .active).getProfiles name) :=
  (refusedOr_getList true name).bind fun _ _ => refusedOr_self _

/-- To compute profiles under the rule that refuses is refused, or it is to compute them from the
layers that take part. -/
theorem refusedOr_computeProfiles (request : ProfileRequest) :
    RefusedOr ((overTree tree known .strict).computeProfiles request)
      ((overTree tree known .active).computeProfiles request) := by
  refine (refusedOr_getProfiles _).bind fun included _ => ?_
  rw [selectProfiles_eq, selectProfiles_eq]
  refine RefusedOr.bind ?_ fun chosen _ => RefusedOr.bind ?_ fun otherwise _ => refusedOr_self _
  · split
    · exact (refusedOr_getProfiles _).map _
    · exact refusedOr_self _
  · split
    · exact refusedOr_self _
    · exact (refusedOr_getProfiles _).map _

/-- Profiles that could be computed follow from the active sources. -/
theorem computeProfiles_of_activeSources {first second : LayerTree} {request : ProfileRequest}
    {profiles others : Profiles}
    (computed : (overTree first known .strict).computeProfiles request = .ok profiles)
    (otherComputed : (overTree second known .strict).computeProfiles request = .ok others)
    (same : second.activeSources known = first.activeSources known) : others = profiles := by
  have lenient {tree : LayerTree} {found : Profiles}
      (computed : (overTree tree known .strict).computeProfiles request = .ok found) :
      (overTree tree known .active).computeProfiles request = .ok found := by
    rcases refusedOr_computeProfiles request with ⟨_, _, refused⟩ | agrees
    · rw [refused] at computed
      cases computed
    · rw [← agrees, computed]
  have sameList (name : String) : (overTree second known .active).getList name =
      (overTree first known .active).getList name := by
    rw [show LookupRule.active = ⟨true, false⟩ from rfl, getList_lenient, getList_lenient]
    show SourceList.getList (overTree second known .active).sources name =
      SourceList.getList (overTree first known .active).sources name
    rw [sources_active, sources_active, same]
  have agree := (computeProfiles_congr sameList request).symm.trans (lenient otherComputed)
  exact Except.ok.inj (agree.symm.trans (lenient computed))

end Profiles

end Lookup

namespace Configuration

/-- The stages of a resolution that succeeds. -/
theorem stages_of_resolve {repository : Repository} {initial : List Source}
    {request : ProfileRequest} {configuration : Configuration}
    (resolved : (resolve repository initial request).outcome = .ok configuration) :
    ∃ given first second, LayerTree.ofBoundSources initial = .ok given ∧
      (given.grow repository none).outcome = .ok first ∧
      (first.grow repository none).outcome = .ok second ∧
      (Lookup.overTree second none .strict).computeProfiles request = .ok configuration.profiles ∧
      (second.grow repository configuration.known).outcome = .ok configuration.tree := by
  obtain ⟨given, bound, resolved⟩ := Run.outcome_bind_eq_ok.mp resolved
  obtain ⟨first, firstGrown, resolved⟩ := Run.outcome_bind_eq_ok.mp resolved
  obtain ⟨second, secondGrown, resolved⟩ := Run.outcome_bind_eq_ok.mp resolved
  obtain ⟨profiles, computed, resolved⟩ := Run.outcome_bind_eq_ok.mp resolved
  obtain ⟨_, _, resolved⟩ := Run.outcome_bind_eq_ok.mp resolved
  obtain ⟨tree, grown, resolved⟩ := Run.outcome_bind_eq_ok.mp resolved
  obtain ⟨_, _, resolved⟩ := Run.outcome_bind_eq_ok.mp resolved
  obtain ⟨_, _, resolved⟩ := Run.outcome_bind_eq_ok.mp resolved
  cases resolved
  exact ⟨given, first, second, bound, firstGrown, secondGrown, computed, grown⟩

section Answers

variable {first second : Configuration}

theorem effectiveOf_congr {lookup other : Lookup} (same : ∀ name, other.get name = lookup.get name)
    (declared : List (String × String)) :
    effectiveOf other declared = effectiveOf lookup declared := by
  induction declared with
  | nil => rfl
  | cons entry rest inductionHypothesis =>
    rw [effectiveOf, effectiveOf, same, inductionHypothesis]

/-- The properties in force follow from the sources. -/
theorem effective_of_sources (same : second.sources = first.sources) :
    second.effective = first.effective := by
  have sameValue (name : String) : second.lookup.get name = first.lookup.get name :=
    (second.get_eq name).trans (same ▸ (first.get_eq name).symm)
  rw [effective, effective, same, effectiveOf_congr sameValue]

end Answers

/-- Two resolutions of the same sources that succeed, from repositories that differ only in what is
hidden from the profiles of one of them, come to the same profiles and sources and give the same
answers. -/
theorem blind_to_hidden_sources {repository other : Repository} {initial : List Source}
    {request : ProfileRequest} {first second : Configuration}
    (resolved : (resolve repository initial request).outcome = .ok first)
    (otherResolved : (resolve other initial request).outcome = .ok second)
    (alike : repository.Alike first.profiles other) :
    second.profiles = first.profiles ∧ second.sources = first.sources ∧
      second.effective = first.effective ∧
      ∀ name, second.get name = first.get name ∧ second.getList name = first.getList name := by
  obtain ⟨given, early, tree, bound, earlyGrown, grown, computed, finalGrown⟩ :=
    stages_of_resolve resolved
  obtain ⟨_, otherEarly, otherTree, otherBound, otherEarlyGrown, otherGrown, otherComputed,
    otherFinalGrown⟩ := stages_of_resolve otherResolved
  obtain rfl := Except.ok.inj (bound.symm.trans otherBound)
  have unknown : (none : Option Profiles) = none ∨ none = some first.profiles := Or.inl rfl
  have sameTrees := ((LayerTree.sameBehind_start bound first.profiles).grow unknown alike earlyGrown
    otherEarlyGrown).grow unknown alike grown otherGrown
  have sameProfiles : second.profiles = first.profiles :=
    Lookup.computeProfiles_of_activeSources computed otherComputed
      (sameTrees.activeSources_eq unknown)
  have sameKnown : second.known = first.known := congrArg some sameProfiles
  rw [sameKnown] at otherFinalGrown
  have sameFinal := (sameTrees.learn first.profiles).grow (Or.inr rfl) alike finalGrown
    otherFinalGrown
  have sameSources : second.sources = first.sources := by
    rw [sources, sources, sameKnown]
    exact sameFinal.activeSources_eq (Or.inr rfl)
  refine ⟨sameProfiles, sameSources, effective_of_sources sameSources, fun name => ?_⟩
  rw [get_eq, get_eq, getList_eq, getList_eq, sameSources]
  exact ⟨rfl, rfl⟩

/-- A source that is for a profile and imports another one, in front of a source for all. -/
def variedTable (secret : String) : List (String × Bundle) :=
  [("a", ⟨[.ofPairs "hidden" [("config.activate.on-profile", "prod"), ("config.import", "b"),
      ("x", secret)], .ofPairs "shown" [("x", "${y}")]], false⟩),
    ("b", ⟨[.ofPairs "below" [("w", "${x}")]], false⟩)]

/-- A source that imports both, and includes a profile. -/
def variedSource : Source :=
  .ofPairs "s" [("config.import", "a"), ("y", "open"), ("profiles.include", "base")]

/-- What the hidden source of the table holds is different, and all answers are the same. -/
theorem blind_to_hidden_sources_variedTable :
    ∃ first second,
      (resolve (.ofTable (variedTable "1")) [variedSource] .unset).outcome = .ok first ∧
      (resolve (.ofTable (variedTable "2")) [variedSource] .unset).outcome = .ok second ∧
      (Repository.ofTable (variedTable "1")).Alike first.profiles (.ofTable (variedTable "2")) ∧
      first.tree.layers.map (·.value? "x") = [some "1", some "${y}", none, none] ∧
      second.tree.layers.map (·.value? "x") = [some "2", some "${y}", none, none] ∧
      second.profiles = first.profiles ∧ second.sources = first.sources ∧
      second.effective = first.effective ∧
      ∀ name, second.get name = first.get name ∧ second.getList name = first.getList name := by
  have resolves : (resolve (.ofTable (variedTable "1")) [variedSource] .unset).outcome.toOption.map
      (fun first => (first.profiles, first.tree.layers.map (·.value? "x"))) =
        some (⟨["base"], ["default"]⟩, [some "1", some "${y}", none, none]) := by
    decide +kernel
  have otherResolves :
      (resolve (.ofTable (variedTable "2")) [variedSource] .unset).outcome.toOption.map
        (fun second => second.tree.layers.map (·.value? "x")) =
        some [some "2", some "${y}", none, none] := by
    decide +kernel
  obtain ⟨first, resolved, read⟩ := exists_ok_of_map resolves
  obtain ⟨second, otherResolved, otherRead⟩ := exists_ok_of_map otherResolves
  have isProfiles : first.profiles = ⟨["base"], ["default"]⟩ := congrArg Prod.fst read
  have alike : (Repository.ofTable (variedTable "1")).Alike first.profiles
      (.ofTable (variedTable "2")) := by
    refine Repository.alike_ofTable (.cons ⟨rfl, rfl, ?_⟩ (.cons ⟨rfl, rfl, ?_⟩ .nil))
    · rw [isProfiles]
      exact .cons (Or.inr ⟨by decide +kernel, by decide +kernel⟩) (.cons (Or.inl rfl) .nil)
    · exact .cons (Or.inl rfl) .nil
  exact ⟨first, second, resolved, otherResolved, alike, congrArg Prod.snd read, otherRead,
    blind_to_hidden_sources resolved otherResolved alike⟩

end Configuration

end LayeredConfig
