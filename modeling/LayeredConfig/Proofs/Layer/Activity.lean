/-
This file says which layers take part, and that learning the profiles only lets more of them do so.

Whether a layer takes part follows from its role. A layer that takes part while profiles are unknown
depends on none: neither its bundle nor its resource is for a profile, and it has no condition. So
it takes part whatever the profiles turn out to be.
-/

import LayeredConfig.Proofs.Layer.Entry

namespace LayeredConfig

namespace Role

/-- Whether a layer in this role takes part. -/
def isActive (known : Option Profiles) (role : Role) : Bool :=
  Layer.isActive known (.node 0 0 role none none)

@[simp] theorem isActive_opened (known : Option Profiles) (role : Role) :
    role.opened.isActive known = role.isActive known := by
  cases role <;> rfl

/-- The phase that attached a layer; the given layers are there before any profiles are known. -/
def phase (role : Role) : Phase :=
  match role.origin? with
  | some origin => origin.phase
  | none => .before

@[simp] theorem phase_opened (role : Role) : role.opened.phase = role.phase := by
  rw [phase, origin_opened]
  rfl

theorem phase_of_origin {role : Role} {origin : Origin} (isOrigin : role.origin? = some origin) :
    role.phase = origin.phase := by
  rw [phase, isOrigin]

theorem phase_eq_before {role : Role} :
    role.phase = .before ↔ ∀ origin, role.origin? = some origin → origin.phase = .before := by
  unfold phase
  cases role.origin? with
  | none =>
    refine ⟨fun _ origin isOrigin => ?_, fun _ => rfl⟩
    cases isOrigin
  | some origin =>
    exact ⟨fun isBefore _ same => Option.some.inj same ▸ isBefore, fun all => all origin rfl⟩

end Role

namespace Layer

theorem isActive_eq (known : Option Profiles) (layer : Layer) :
    layer.isActive known = layer.role.isActive known := by
  cases layer
  rfl

theorem originActive_of_unknown {origin : Origin} (active : originActive none origin = true)
    (known : Option Profiles) : originActive known origin = true := by
  unfold originActive at active ⊢
  split at active
  · next forAll => exact if_pos forAll
  · cases active

theorem conditionActive_of_unknown {condition : Option Condition}
    (active : conditionActive none condition = true) (known : Option Profiles) :
    conditionActive known condition = true := by
  cases condition with
  | none => rfl
  | some => cases active

end Layer

/-- A layer that takes part while profiles are unknown takes part whatever they are. -/
theorem Role.isActive_of_unknown {role : Role} (active : role.isActive none = true)
    (known : Option Profiles) : role.isActive known = true := by
  have both {origin : Origin} {declared : Declared}
      (active : (Layer.originActive none origin &&
        Layer.conditionActive none declared.condition) = true) :
      (Layer.originActive known origin &&
        Layer.conditionActive known declared.condition) = true := by
    rw [Bool.and_eq_true] at active ⊢
    exact ⟨Layer.originActive_of_unknown active.1 known,
      Layer.conditionActive_of_unknown active.2 known⟩
  cases role with
  | root => rfl
  | initial => rfl
  | found => cases active
  | bound => exact both active
  | expanded => exact both active

/-- A layer that takes part while profiles are unknown has a resource for all profiles. -/
theorem Role.untagged_of_active {role : Role} (active : role.isActive none = true) {origin : Origin}
    (isOrigin : role.origin? = some origin) : origin.resource.profile = none := by
  have ofOrigin {other : Origin} {declared : Declared}
      (active : (Layer.originActive none other &&
        Layer.conditionActive none declared.condition) = true)
      (same : some other = some origin) : origin.resource.profile = none := by
    obtain rfl := Option.some.inj same
    rw [Bool.and_eq_true, Layer.originActive] at active
    have forAll := active.1
    split at forAll
    · next both =>
      rw [Bool.and_eq_true, Option.isNone_iff_eq_none] at both
      exact both.2
    · cases forAll
  cases role with
  | root | initial => cases isOrigin
  | found => cases active
  | bound => exact ofOrigin active isOrigin
  | expanded => exact ofOrigin active isOrigin

end LayeredConfig
