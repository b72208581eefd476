/-
This file shows that names of profiles which pass the check of the settings mean themselves in a
condition.

The check and the reading of conditions each have a list of characters of their own: those that no
name may hold, and those that end a name. A name that passes holds none of the latter, so it is read
as one name wherever a sign or nothing comes behind it. Names with commas between them are then read
as alternatives, one for each name, and any one of them that is accepted meets the condition.
-/

import LayeredConfig.Proofs.Profile.Writing
import LayeredConfig.Proofs.Settings.Acceptance

namespace LayeredConfig

open Text

/-! ### Names that pass the check -/

theorem Settings.isNamePart_of_not_isReserved {c : Char} (free : isReserved c = false) :
    Condition.IsNamePart c := by
  simp only [isReserved, Bool.or_eq_false_iff, List.contains_eq_mem, decide_eq_false_iff_not,
    List.mem_cons, List.not_mem_nil, or_false, not_or] at free
  obtain ⟨⟨filled, _⟩, noSign⟩ := free
  refine ⟨filled, ?_⟩
  simp [noSign]

/-- A name that passes the check is read as one name. -/
theorem Settings.isName_of_profileFault {name : String} (sound : profileFault? name = none) :
    Condition.IsName name := by
  unfold profileFault? at sound
  split at sound
  · cases sound
  · next filled =>
    split at sound
    · cases sound
    · split at sound
      · cases sound
      · next free =>
        refine ⟨fun empty => filled (by rw [empty]; rfl), fun c member => ?_⟩
        exact isNamePart_of_not_isReserved
          (Bool.not_eq_true _ ▸ List.find?_eq_none.mp free c member)

namespace ProfileSettings

/-- All names in the lists of the settings. -/
def names (profiles : ProfileSettings) : List String :=
  profiles.active.getD [] ++ profiles.fallback.getD [] ++ profiles.additional.getD []

theorem profileFault_of_check {profiles : ProfileSettings}
    (accepted : Settings.checkProfiles profiles = .ok ()) :
    ∀ name ∈ profiles.names, Settings.profileFault? name = none := by
  obtain ⟨_, active, accepted⟩ := bind_eq_ok.mp accepted
  obtain ⟨_, fallback, additional⟩ := bind_eq_ok.mp accepted
  have ofList {field : String} {list : Option (List String)}
      (accepted : Settings.checkList field Settings.profileFault? list = .ok ()) :
      ∀ name ∈ list.getD [], Settings.profileFault? name = none := by
    cases list with
    | none => exact nofun
    | some names => exact Settings.checkList_eq_ok.mp accepted names rfl
  simp only [names, List.forall_mem_append]
  exact ⟨⟨ofList active, ofList fallback⟩, ofList additional⟩

end ProfileSettings

namespace Condition

/-! ### Names with commas between them -/

/-- The condition that one of some names is accepted: a single name, or any of several. -/
def oneOf : List String → Condition
  | [name] => .profile name
  | names => .any (names.map .profile)

/-- The derivation of a name that is an operation by itself. -/
def alone (name : String) : Operation :=
  .joined .and (.name name) []

/-- The derivation of names with commas between them. -/
def listing (first : String) (others : List String) : Listing :=
  .of (alone first) (others.map alone)

theorem tokens_listing (first : String) (others : List String) :
    (listing first others).tokens = ((first :: others).map Token.name).intersperse .comma := by
  induction others generalizing first with
  | nil => rfl
  | cons second rest inductionHypothesis =>
    rw [List.map_cons, List.map_cons, List.intersperse_cons_cons, ← List.map_cons,
      ← inductionHypothesis second]
    rfl

theorem condition_listing (first : String) (others : List String) :
    (listing first others).condition = oneOf (first :: others) := by
  have conditions (names : List String) :
      Operation.conditions (names.map alone) = names.map Condition.profile := by
    induction names with
    | nil => rfl
    | cons name rest inductionHypothesis =>
      rw [List.map_cons, Operation.conditions, inductionHypothesis]
      rfl
  rw [listing, Listing.condition, conditions]
  cases others <;> rfl

theorem holds_listing {accepted : String → Prop} (first : String) (others : List String) :
    (listing first others).Holds accepted ↔ ∃ name ∈ first :: others, accepted name := by
  have holdsAlone (name : String) : (alone name).Holds accepted ↔ accepted name :=
    and_iff_left trivial
  have anyHolds (names : List String) :
      Operation.AnyHolds accepted (names.map alone) ↔ ∃ name ∈ names, accepted name := by
    induction names with
    | nil => simp [Operation.AnyHolds]
    | cons name rest inductionHypothesis =>
      simp [Operation.AnyHolds, inductionHypothesis, holdsAlone]
  exact anyHolds (first :: others)

/-- Behind a name comes a comma, which ends it, or the end of the text. -/
theorem spells_intercalate {first : String} {others : List String}
    (areNames : ∀ name ∈ first :: others, IsName name) :
    Spells (String.intercalate "," (first :: others)).toList (listing first others).tokens := by
  rw [tokens_listing]
  induction others generalizing first with
  | nil =>
    have last := (writes_profile (areNames first List.mem_cons_self)).2 [] [] nofun .done
    simpa [text, Operand.tokens] using last
  | cons second rest inductionHypothesis =>
    obtain ⟨isName, areOthers⟩ := List.forall_mem_cons.mp areNames
    have isComma : Token.ofChar? ',' = some .comma := rfl
    have behind := Spells.sign isComma (inductionHypothesis areOthers)
    have whole := (writes_profile isName).2 _ _ (by simp [not_isNamePart_of_sign isComma]) behind
    simpa [text, Operand.tokens] using whole

/-- Names of profiles that pass the check are the tokens of a text in which they stand with commas
between them, and the condition that is read from it is met if one of them is accepted. -/
theorem names_read_as_listed {settings : Settings} {profiles : ProfileSettings}
    {names : List String} (accepted : settings.check = .ok ())
    (given : settings.profiles = some profiles) (listed : ∀ name ∈ names, name ∈ profiles.names)
    (isSome : names ≠ []) :
    tokens (String.intercalate "," names) = (names.map Token.name).intersperse .comma ∧
      read (String.intercalate "," names) = .ok (oneOf names) ∧
      ∀ known : Profiles, (oneOf names).isMetBy known = true ↔
        ∃ name ∈ names, name ∈ known.accepted := by
  have wellNamed := (Settings.check_eq_ok.mp accepted).1
  have sound := ProfileSettings.profileFault_of_check (wellNamed.profiles profiles given)
  obtain ⟨first, others, rfl⟩ := List.exists_cons_of_ne_nil isSome
  have spells := spells_intercalate fun name member =>
    Settings.isName_of_profileFault (sound name (listed name member))
  refine ⟨?_, read_eq_ok.mpr ⟨_, spells, condition_listing first others⟩, fun known => ?_⟩
  · rw [← tokens_listing]
    exact spells_iff.mp spells
  · rw [← condition_listing, Listing.isMetBy_condition, holds_listing]

/-- Settings that ask for profiles with signs of other kinds in their names. -/
def signedSettings : Settings :=
  { Settings.empty with profiles := some ⟨some ["prod", "eu-west.1"], none, some ["${a}:b=[/]"]⟩ }

/-- Nothing but commas comes between the names. -/
theorem names_read_as_listed_signedSettings :
    signedSettings.check = .ok () ∧
      read "eu-west.1,${a}:b=[/],prod" =
        .ok (.any [.profile "eu-west.1", .profile "${a}:b=[/]", .profile "prod"]) ∧
      ∀ known : Profiles,
        (Condition.any [.profile "eu-west.1", .profile "${a}:b=[/]", .profile "prod"]).isMetBy
          known = true ↔
            ∃ name ∈ ["eu-west.1", "${a}:b=[/]", "prod"], name ∈ known.accepted := by
  have accepted : signedSettings.check = .ok () := ok_of_toOption (by decide +kernel)
  have listed : ∀ name ∈ ["eu-west.1", "${a}:b=[/]", "prod"],
      name ∈ ProfileSettings.names ⟨some ["prod", "eu-west.1"], none, some ["${a}:b=[/]"]⟩ := by
    decide
  exact ⟨accepted, (names_read_as_listed accepted rfl listed (by decide)).2⟩

end Condition

end LayeredConfig
