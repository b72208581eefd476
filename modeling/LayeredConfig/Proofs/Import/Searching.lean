/-
This file says by which search an import comes to each resource that it reads.

An import searches every location for what counts for all profiles and then, if profiles are known,
for variants. What the searches lead to is read in their order, and an identity that was tried is
passed over. So every resource that is read is owed to one find, the first of its identity; and
where the finds fall in two parts, all that is read for the first part is read before what is read
for the second.
-/

import LayeredConfig.Proofs.Import.Gathering

namespace LayeredConfig

/-- What a location is searched for: what counts for all profiles, or what belongs to one. -/
inductive Search where
  | base
  | variants
  deriving DecidableEq, Repr

/-- A resource, with the location that was searched and the search that led to it. -/
structure Find where
  location : Location
  search : Search
  resource : Resource
  deriving DecidableEq, Repr

namespace Repository

/-! ### What finders answer -/

/-- The resources that the finder of a location answers to a search; none if it fails. -/
def answer (repository : Repository) (context : FindContext) (location : Location)
    (search : Search) : List Resource :=
  match repository.finders.find? fun finder => finder.takes context location with
  | none => []
  | some finder =>
    match search, context.known with
    | .base, _ => (finder.find context location).toOption.getD []
    | .variants, none => []
    | .variants, some profiles =>
      (finder.findVariants context location profiles).toOption.getD []

/-- What a search of one location leads to. -/
def searched (repository : Repository) (context : FindContext) (location : Location)
    (search : Search) : List Find :=
  (repository.answer context location search).map fun resource => ⟨location, search, resource⟩

/-- What the searches for a list of locations lead to, in the order in which they are made. -/
def finds (repository : Repository) (context : FindContext) (locations : List Location) :
    List Find :=
  locations.flatMap fun location =>
    repository.searched context location .base ++ repository.searched context location .variants

section Finds

variable {repository : Repository} {context : FindContext}

theorem mem_searched {location : Location} {search : Search} {find : Find} :
    find ∈ repository.searched context location search ↔
      find.location = location ∧ find.search = search ∧
        find.resource ∈ repository.answer context location search := by
  constructor
  · intro member
    obtain ⟨resource, inAnswer, rfl⟩ := List.mem_map.mp member
    exact ⟨rfl, rfl, inAnswer⟩
  · obtain ⟨_, _, resource⟩ := find
    rintro ⟨rfl, rfl, inAnswer⟩
    exact List.mem_map_of_mem inAnswer

theorem mem_finds {locations : List Location} {find : Find} :
    find ∈ repository.finds context locations ↔
      find.location ∈ locations ∧
        find.resource ∈ repository.answer context find.location find.search := by
  rw [finds, List.mem_flatMap]
  constructor
  · rintro ⟨location, isDeclared, member⟩
    rcases List.mem_append.mp member with inBase | inVariants
    · obtain ⟨rfl, isBase, inAnswer⟩ := mem_searched.mp inBase
      exact ⟨isDeclared, isBase ▸ inAnswer⟩
    · obtain ⟨rfl, isVariants, inAnswer⟩ := mem_searched.mp inVariants
      exact ⟨isDeclared, isVariants ▸ inAnswer⟩
  · rintro ⟨isDeclared, inAnswer⟩
    refine ⟨find.location, isDeclared, List.mem_append.mpr ?_⟩
    cases search : find.search with
    | base => exact Or.inl (mem_searched.mpr ⟨rfl, search, search ▸ inAnswer⟩)
    | variants => exact Or.inr (mem_searched.mpr ⟨rfl, search, search ▸ inAnswer⟩)

theorem finds_append (first second : List Location) :
    repository.finds context (first ++ second) =
      repository.finds context first ++ repository.finds context second :=
  List.flatMap_append

theorem finds_cons (location : Location) (rest : List Location) :
    repository.finds context (location :: rest) =
      repository.searched context location .base ++
        repository.searched context location .variants ++
        repository.finds context rest :=
  List.flatMap_cons

/-! ### What is found -/

theorem findBase_eq {finder : Finder} {location : Location} {found : List Resource}
    (succeeded : (repository.findBase finder context location).outcome = .ok found) :
    found = (finder.find context location).toOption.getD [] := by
  unfold findBase at succeeded
  obtain ⟨_, _, succeeded⟩ := Run.outcome_bind_eq_ok.mp succeeded
  split at succeeded
  · next base isBase =>
    cases succeeded
    rw [isBase]
    rfl
  · next cause isMiss =>
    split at succeeded
    · obtain ⟨_, _, succeeded⟩ := Run.outcome_bind_eq_ok.mp succeeded
      cases succeeded
      rw [isMiss]
      rfl
    · cases succeeded

theorem findSpecific_eq {finder : Finder} {location : Location} {found : List Resource}
    (succeeded : (findSpecific finder context location).outcome = .ok found) :
    found = match context.known with
      | none => []
      | some profiles => (finder.findVariants context location profiles).toOption.getD [] := by
  unfold findSpecific at succeeded
  cases known : context.known with
  | none =>
    rw [known] at succeeded
    cases succeeded
    rfl
  | some profiles =>
    rw [known] at succeeded
    obtain ⟨_, _, succeeded⟩ := Run.outcome_bind_eq_ok.mp succeeded
    rw [Run.outcome_ofExcept] at succeeded
    dsimp only
    rw [succeeded]
    rfl

/-- What is found for a location is what its searches lead to. -/
theorem findOne_eq {location : Location} {found : List Resource}
    (succeeded : (repository.findOne context location).outcome = .ok found) :
    found = repository.answer context location .base ++
      repository.answer context location .variants := by
  unfold findOne at succeeded
  cases isFinder : repository.finders.find? fun finder => finder.takes context location with
  | none =>
    rw [isFinder] at succeeded
    cases succeeded
  | some finder =>
    rw [isFinder] at succeeded
    obtain ⟨base, isBase, succeeded⟩ := Run.outcome_bind_eq_ok.mp succeeded
    obtain ⟨specific, isSpecific, succeeded⟩ := Run.outcome_bind_eq_ok.mp succeeded
    cases succeeded
    unfold answer
    rw [isFinder, findBase_eq isBase, findSpecific_eq isSpecific]
    cases context.known <;> rfl

theorem findAll_eq {locations : List Location} {found : List Resource}
    (succeeded : (repository.findAll context locations).outcome = .ok found) :
    found = (repository.finds context locations).map Find.resource := by
  induction locations generalizing found with
  | nil =>
    cases succeeded
    rfl
  | cons location rest inductionHypothesis =>
    obtain ⟨first, isFirst, succeeded⟩ := Run.outcome_bind_eq_ok.mp succeeded
    obtain ⟨others, areOthers, succeeded⟩ := Run.outcome_bind_eq_ok.mp succeeded
    cases succeeded
    have resources (search : Search) : (repository.searched context location search).map
        Find.resource = repository.answer context location search := by
      rw [searched, List.map_map]
      exact List.map_id _
    rw [findOne_eq isFirst, inductionHypothesis areOthers, finds_cons, List.map_append,
      List.map_append, resources, resources]

end Finds

/-! ### What is read -/

section Reading

variable {repository : Repository}

theorem outcome_of_mem_loadOf {resource : Resource} {outcome : Except Error (Option Bundle)}
    {load : Resource × Bundle} (member : load ∈ loadOf resource outcome) :
    outcome = .ok (some load.2) := by
  rcases outcome with cause | (_ | bundle)
  · cases member
  · cases member
  · rw [List.mem_singleton.mp member]

/-- Reading goes from the first resource to the others with the first one's identity seen, or it
ends with the first resource. -/
theorem loads_readAll_split (seen : List String) (resource : Resource) (rest : List Resource) :
    ∃ here later, (repository.readAll seen (resource :: rest)).recorded.loads = here ++ later ∧
      (∀ load ∈ here, load.1 = resource ∧
        (repository.readOne resource).outcome = .ok (some load.2)) ∧
      (later = [] ∨ ∃ others, resource.id ∈ others ∧
        later = (repository.readAll others rest).recorded.loads) := by
  cases isSeen : seen.contains resource.id with
  | true =>
    rw [loads_readAll_seen rest isSeen]
    refine ⟨[], _, rfl, fun load member => ?_, Or.inr ⟨seen, List.contains_iff_mem.mp isSeen, rfl⟩⟩
    cases member
  | false =>
    rw [loads_readAll_cons rest isSeen]
    refine ⟨_, _, rfl, fun load member => ⟨mem_loadOf member, outcome_of_mem_loadOf member⟩, ?_⟩
    cases (repository.readOne resource).outcome with
    | ok => exact Or.inr ⟨_, List.mem_cons_self, rfl⟩
    | error => exact Or.inl rfl

/-- What is loaded of a resource is what reading it comes to, whenever it is read. -/
theorem outcome_of_load (seen : List String) (resources : List Resource) :
    ∀ load ∈ (repository.readAll seen resources).recorded.loads,
      (repository.readOne load.1).outcome = .ok (some load.2) := by
  induction resources generalizing seen with
  | nil =>
    intro load member
    cases member
  | cons resource rest inductionHypothesis =>
    obtain ⟨here, later, split, isHere, isLater⟩ := loads_readAll_split seen resource rest
    rw [split]
    intro load member
    rcases List.mem_append.mp member with inHere | inLater
    · obtain ⟨same, outcome⟩ := isHere load inHere
      rw [same, outcome]
    · rcases isLater with rfl | ⟨others, _, rfl⟩
      · cases inLater
      · exact inductionHypothesis others load inLater

/-- A resource that is read is the first one of its identity. -/
theorem first_of_load (seen : List String) (resources : List Resource) :
    ∀ load ∈ (repository.readAll seen resources).recorded.loads,
      resources.find? (fun resource => resource.id == load.1.id) = some load.1 := by
  induction resources generalizing seen with
  | nil =>
    intro load member
    cases member
  | cons resource rest inductionHypothesis =>
    obtain ⟨here, later, split, isHere, isLater⟩ := loads_readAll_split seen resource rest
    rw [split]
    intro load member
    rcases List.mem_append.mp member with inHere | inLater
    · rw [(isHere load inHere).1]
      exact List.find?_cons_of_pos (beq_self_eq_true resource.id)
    · rcases isLater with rfl | ⟨others, isSeen, rfl⟩
      · cases inLater
      · have fresh := (readAll_fresh others rest load inLater).2
        rw [List.find?_cons_of_neg, inductionHypothesis others load inLater]
        intro same
        exact fresh (beq_iff_eq.mp same ▸ isSeen)

/-- What is read of the first resources comes before what is read of the others, which have other
identities. -/
theorem loads_readAll_append (repository : Repository) (seen : List String)
    (front back : List Resource) :
    ∃ first second, (repository.readAll seen (front ++ back)).recorded.loads = first ++ second ∧
      (∀ load ∈ first, load.1 ∈ front) ∧
      ∀ load ∈ second, ∀ resource ∈ front, resource.id ≠ load.1.id := by
  induction front generalizing seen with
  | nil =>
    refine ⟨[], _, rfl, ?_, ?_⟩
    · intro load member
      cases member
    · intro load _ resource member
      cases member
  | cons resource rest inductionHypothesis =>
    obtain ⟨here, later, split, isHere, isLater⟩ := loads_readAll_split seen resource (rest ++ back)
    rw [List.cons_append, split]
    have inFront {load : Resource × Bundle} (member : load ∈ here) : load.1 ∈ resource :: rest :=
      (isHere load member).1 ▸ List.mem_cons_self
    rcases isLater with rfl | ⟨others, isSeen, isLater⟩
    · refine ⟨here, [], rfl, fun load => inFront, ?_⟩
      intro load member
      cases member
    · obtain ⟨first, second, splitLater, firstIn, differ⟩ := inductionHypothesis others
      have fresh : ∀ load ∈ second, load.1.id ∉ others := fun load member =>
        (readAll_fresh others (rest ++ back) load
          (splitLater ▸ List.mem_append_right _ member)).2
      refine ⟨here ++ first, second, ?_, fun load member => ?_, fun load member other isOther => ?_⟩
      · rw [isLater, splitLater, List.append_assoc]
      · rcases List.mem_append.mp member with inHere | inFirst
        · exact inFront inHere
        · exact List.mem_cons_of_mem _ (firstIn load inFirst)
      · rcases List.mem_cons.mp isOther with rfl | inRest
        · exact fun same => fresh load member (same ▸ isSeen)
        · exact differ load member other inRest

end Reading

/-! ### Importing -/

section Gather

variable {repository : Repository} {context : FindContext}

/-- What an import loads, it loads by reading what its searches lead to. -/
theorem loads_gather_eq (repository : Repository) (context : FindContext)
    (locations : List Location) (loaded : List String) :
    (repository.gather context locations loaded).recorded.loads = [] ∨
      (repository.gather context locations loaded).recorded.loads =
        (repository.readAll loaded
          ((repository.finds context locations).map Find.resource)).recorded.loads := by
  rw [loads_gather]
  split
  · next resources areFound =>
    rw [findAll_eq areFound]
    exact Or.inr rfl
  · exact Or.inl rfl

theorem outcome_of_gather (locations : List Location) (loaded : List String) :
    ∀ load ∈ (repository.gather context locations loaded).recorded.loads,
      (repository.readOne load.1).outcome = .ok (some load.2) := by
  intro load member
  rcases loads_gather_eq repository context locations loaded with none | loads
  · rw [none] at member
    cases member
  · rw [loads] at member
    exact outcome_of_load _ _ load member

/-- A resource that an import reads is owed to the first find of its identity. -/
theorem first_of_gather (locations : List Location) (loaded : List String) :
    ∀ load ∈ (repository.gather context locations loaded).recorded.loads,
      ∃ find, (repository.finds context locations).find?
        (fun other => other.resource.id == load.1.id) = some find ∧ find.resource = load.1 := by
  intro load member
  rcases loads_gather_eq repository context locations loaded with none | loads
  · rw [none] at member
    cases member
  · rw [loads] at member
    have first := first_of_load _ _ load member
    rw [List.find?_map] at first
    exact Option.map_eq_some_iff.mp first

/-- What an import reads for the first finds comes before what it reads for the others. -/
theorem loads_gather_append {locations : List Location} {front back : List Find}
    (split : repository.finds context locations = front ++ back) (loaded : List String) :
    ∃ first second,
      (repository.gather context locations loaded).recorded.loads = first ++ second ∧
      (∀ load ∈ first, ∃ find ∈ front, find.resource = load.1) ∧
      ∀ load ∈ second, ∀ find ∈ front, find.resource.id ≠ load.1.id := by
  rcases loads_gather_eq repository context locations loaded with none | loads
  · refine ⟨[], [], none, ?_, ?_⟩
    · intro load member
      cases member
    · intro load member
      cases member
  · rw [loads, split, List.map_append]
    obtain ⟨first, second, isSplit, inFront, differ⟩ := loads_readAll_append repository loaded
      (front.map Find.resource) (back.map Find.resource)
    refine ⟨first, second, isSplit, fun load member => List.mem_map.mp (inFront load member), ?_⟩
    exact fun load member find isFind => differ load member _ (List.mem_map_of_mem isFind)

end Gather

end Repository

end LayeredConfig
