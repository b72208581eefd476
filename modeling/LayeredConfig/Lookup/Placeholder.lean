/-
This file expands placeholders in property values.

`${name}` stands for the value of another property, and `${name:default}` for a default if there is
no such property. Placeholders nest, and a found value is itself expanded. A placeholder without a
value and a default is left as it stands, and so is everything from a placeholder that never ends.

Expansion ends because of two things that shrink: the names that may still be entered, and the text
that is still to be read. Entering a name uses it up, so that a name met for the second time on one
way is a cycle.
-/

import LayeredConfig.Error
import LayeredConfig.Property.Name

namespace LayeredConfig

open Text

namespace Placeholder

/-! ### The shape of a text -/

/-- Cuts a text at its first `${`: what stands before it and what after. -/
def cutOpening? : List Char → Option (List Char × List Char)
  | [] => none
  | '$' :: '{' :: rest => some ([], rest)
  | c :: rest => (cutOpening? rest).map fun (before, inside) => (c :: before, inside)

/-- Cuts what follows a `${` at the brace that closes it; `depth` placeholders are open inside. -/
def cutClosing? (depth : Nat) : List Char → Option (List Char × List Char)
  | [] => none
  | '$' :: '{' :: rest =>
    (cutClosing? (depth + 1) rest).map fun (body, tail) => ('$' :: '{' :: body, tail)
  | '}' :: rest =>
    match depth with
    | 0 => some ([], rest)
    | depth + 1 => (cutClosing? depth rest).map fun (body, tail) => ('}' :: body, tail)
  | c :: rest => (cutClosing? depth rest).map fun (body, tail) => (c :: body, tail)

theorem length_cutOpening {text before inside : List Char}
    (found : cutOpening? text = some (before, inside)) :
    before.length + inside.length + 2 = text.length := by
  fun_induction cutOpening? text generalizing before inside with
  | case1 => simp at found
  | case2 rest =>
    simp only [Option.some.injEq, Prod.mk.injEq] at found
    obtain ⟨rfl, rfl⟩ := found
    simp
  | case3 c rest _ inductionHypothesis =>
    simp only [Option.map_eq_some_iff, Prod.mk.injEq, Prod.exists] at found
    obtain ⟨first, second, inner, rfl, rfl⟩ := found
    have := inductionHypothesis inner
    simp only [List.length_cons]
    omega

theorem length_cutClosing {depth : Nat} {text body tail : List Char}
    (found : cutClosing? depth text = some (body, tail)) :
    body.length + tail.length + 1 = text.length := by
  fun_induction cutClosing? depth text generalizing body tail with
  | case1 => simp at found
  | case2 depth rest inductionHypothesis =>
    simp only [Option.map_eq_some_iff, Prod.mk.injEq, Prod.exists] at found
    obtain ⟨first, second, inner, rfl, rfl⟩ := found
    have := inductionHypothesis inner
    simp only [List.length_cons]
    omega
  | case3 rest =>
    simp only [Option.some.injEq, Prod.mk.injEq] at found
    obtain ⟨rfl, rfl⟩ := found
    simp
  | case4 rest depth inductionHypothesis =>
    simp only [Option.map_eq_some_iff, Prod.mk.injEq, Prod.exists] at found
    obtain ⟨first, second, inner, rfl, rfl⟩ := found
    have := inductionHypothesis inner
    simp only [List.length_cons]
    omega
  | case5 depth c rest _ _ inductionHypothesis =>
    simp only [Option.map_eq_some_iff, Prod.mk.injEq, Prod.exists] at found
    obtain ⟨first, second, inner, rfl, rfl⟩ := found
    have := inductionHypothesis inner
    simp only [List.length_cons]
    omega

/-- Whether a text holds a `${`. -/
def occursIn (text : String) : Bool :=
  (cutOpening? text.toList).isSome

/-- The key and the default of the inside of a placeholder, cut at its first colon. -/
def cutDefault (inside : List Char) : List Char × Option (List Char) :=
  match cutOnce? ':' inside with
  | some (key, fallback) => (key, some fallback)
  | none => (inside, none)

/-- What a placeholder without a value is replaced by. -/
def unresolved (inside : List Char) : List Char :=
  match cutDefault inside with
  | (_, some fallback) => fallback
  | (_, none) => '$' :: '{' :: inside ++ ['}']

/-! ### Expansion -/

/-- The names other than one. -/
def without (name : String) (names : List String) : List String :=
  names.filter (· ≠ name)

theorem length_without_lt {name : String} {names : List String} (member : name ∈ names) :
    (without name names).length < names.length :=
  List.length_filter_lt_length_iff_exists.mpr ⟨name, member, by simp⟩

/-- The names from the first that is spelled like the last one, to that one again. -/
def cycleOf (entered : List String) (name : String) : List String :=
  entered.dropWhile (fun earlier => canonical earlier != canonical name) ++ [name]

/-- Expands a text.

`entered` are the names whose values are being expanded, the outermost first, and `enterable` are
the canonical names that may still be entered. The inside of a placeholder is expanded before its
key and its default are told apart. -/
def expand (find : String → Except Error (Option String)) (enterable entered : List String)
    (text : List Char) : Except Error (List Char) :=
  match opening : cutOpening? text with
  | none => .ok text
  | some (before, rest) =>
    match closing : cutClosing? 0 rest with
    | none => .ok text
    | some (body, tail) =>
      have bodyShorter : body.length < text.length := by
        have := length_cutOpening opening
        have := length_cutClosing closing
        omega
      have tailShorter : tail.length < text.length := by
        have := length_cutOpening opening
        have := length_cutClosing closing
        omega
      match expand find enterable entered body with
      | .error cause => .error cause
      | .ok inside =>
        let key := String.ofList (cutDefault inside).1
        match find key with
        | .error cause => .error cause
        | .ok none =>
          match expand find enterable entered tail with
          | .error cause => .error cause
          | .ok following => .ok (before ++ unresolved inside ++ following)
        | .ok (some raw) =>
          if member : canonical key ∈ enterable then
            have fewer := length_without_lt member
            match expand find (without (canonical key) enterable) (entered ++ [key])
                raw.toList with
            | .error cause => .error cause
            | .ok value =>
              match expand find enterable entered tail with
              | .error cause => .error cause
              | .ok following => .ok (before ++ value ++ following)
          else .error (.cycle (cycleOf entered key))
  termination_by (enterable.length, text.length)

/-- The value of a property: its raw text with the placeholders expanded.

`declared` are the canonical names that can be found. -/
def valueOf (find : String → Except Error (Option String)) (declared : List String)
    (name raw : String) : Except Error String :=
  if occursIn raw then
    (expand find (without (canonical name) declared) [name] raw.toList).map String.ofList
  else .ok raw

end Placeholder

end LayeredConfig
