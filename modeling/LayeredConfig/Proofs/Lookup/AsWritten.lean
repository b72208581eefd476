/-
This file compares how a placeholder is expanded with what it says as it is written.

As it is written, a placeholder has a key and perhaps a default, told apart by the first colon that
belongs to no inner placeholder. The key is expanded and looked up; the default is expanded only if
it is needed; and without a value and a default the placeholder stays. The expansion that runs takes
the inside of a placeholder first, as if it were any text, and cuts what this comes to at its first
colon. So the key, the colon that is written and the default are expanded one after the other and
then cut again. Both come to the same unless an expanded key has a colon of its own, or a default
fails that is not needed, or a placeholder stays whose key is not what was written.
-/

import LayeredConfig.Proofs.Lookup.Meaning
import LayeredConfig.Proofs.Text.Cutting

namespace LayeredConfig

open Text

namespace Placeholder

/-! ### The cut of what is written -/

/-- Cuts at the first colon outside of placeholders, of which `depth` are open at first. -/
def cutOuter? (depth : Nat) : List Char → Option (List Char × List Char)
  | [] => none
  | '$' :: '{' :: rest =>
    (cutOuter? (depth + 1) rest).map fun (key, fallback) => ('$' :: '{' :: key, fallback)
  | '}' :: rest => (cutOuter? (depth - 1) rest).map fun (key, fallback) => ('}' :: key, fallback)
  | c :: rest =>
    if c = ':' ∧ depth = 0 then some ([], rest)
    else (cutOuter? depth rest).map fun (key, fallback) => (c :: key, fallback)

/-- The key and the default of the inside of a placeholder, as they are written. -/
def cutWritten (body : List Char) : List Char × Option (List Char) :=
  match cutOuter? 0 body with
  | some (key, fallback) => (key, some fallback)
  | none => (body, none)

/-- The inside of a placeholder with this key and this default. -/
def joined (key : List Char) : Option (List Char) → List Char
  | some fallback => key ++ ':' :: fallback
  | none => key

theorem eq_of_cutOuter? {depth : Nat} {text key fallback : List Char}
    (cut : cutOuter? depth text = some (key, fallback)) : text = key ++ ':' :: fallback := by
  fun_induction cutOuter? depth text generalizing key fallback with
  | case1 => cases cut
  | case4 depth c rest _ _ isColon =>
    cases cut
    rw [isColon.1]
    rfl
  | case2 _ rest inductionHypothesis | case3 _ rest inductionHypothesis
  | case5 _ _ rest _ _ _ inductionHypothesis =>
    obtain ⟨⟨inner, _⟩, cutRest, same⟩ := Option.map_eq_some_iff.mp cut
    cases same
    rw [inductionHypothesis cutRest]
    rfl

theorem cutOuter?_cons {c : Char} {rest : List Char}
    (notOpening : ∀ others, c = '$' → rest = '{' :: others → False) (notColon : c ≠ ':') :
    cutOuter? 0 (c :: rest) =
      (cutOuter? 0 rest).map fun (key, fallback) => (c :: key, fallback) := by
  by_cases isClosing : c = '}'
  · rw [isClosing, cutOuter?]
  · rw [cutOuter?.eq_4 _ _ _ notOpening isClosing, if_neg fun isColon => notColon isColon.1]

theorem joined_cutWritten (body : List Char) :
    joined (cutWritten body).1 (cutWritten body).2 = body := by
  unfold cutWritten
  cases cut : cutOuter? 0 body with
  | none => rfl
  | some parts => exact (eq_of_cutOuter? cut).symm

theorem length_cutWritten (body : List Char) :
    (cutWritten body).1.length ≤ body.length ∧
      ∀ fallback, (cutWritten body).2 = some fallback → fallback.length ≤ body.length := by
  have whole := congrArg List.length (joined_cutWritten body)
  cases written : (cutWritten body).2 with
  | none =>
    rw [written] at whole
    exact ⟨Nat.le_of_eq whole, fun _ none => nomatch none⟩
  | some fallback =>
    rw [written, joined, List.length_append, List.length_cons] at whole
    refine ⟨by omega, fun _ same => ?_⟩
    rw [← Option.some.inj same]
    omega

/-- A scan that starts in a placeholder goes on outside after the brace that closes it. -/
theorem cutOuter?_inside (depth : Nat) (rest : List Char) :
    cutOuter? (depth + 1) rest = (cutClosing? depth rest).bind fun (body, tail) =>
      (cutOuter? 0 tail).map fun (key, fallback) => (body ++ '}' :: key, fallback) := by
  fun_induction cutClosing? depth rest with
  | case1 => rfl
  | case2 depth rest inductionHypothesis =>
    rw [cutOuter?, inductionHypothesis]
    cases cutClosing? (depth + 1) rest with
    | none => rfl
    | some closed => simp [Function.comp_def]
  | case3 rest =>
    rw [cutOuter?]
    rfl
  | case4 rest depth inductionHypothesis =>
    rw [cutOuter?, Nat.add_sub_cancel, inductionHypothesis]
    cases cutClosing? depth rest with
    | none => rfl
    | some closed => simp [Function.comp_def]
  | case5 depth c rest notOpening notClosing inductionHypothesis =>
    rw [cutOuter?.eq_4 _ _ _ notOpening notClosing, if_neg (by omega), inductionHypothesis]
    cases cutClosing? depth rest with
    | none => rfl
    | some closed => simp [Function.comp_def]

theorem eq_of_cutClosing? {depth : Nat} {rest body tail : List Char}
    (closing : cutClosing? depth rest = some (body, tail)) : rest = body ++ '}' :: tail := by
  fun_induction cutClosing? depth rest generalizing body tail with
  | case1 => cases closing
  | case3 rest =>
    cases closing
    rfl
  | case2 _ rest inductionHypothesis | case4 rest _ inductionHypothesis
  | case5 _ _ rest _ _ inductionHypothesis =>
    obtain ⟨⟨inner, _⟩, closes, same⟩ := Option.map_eq_some_iff.mp closing
    cases same
    rw [inductionHypothesis closes]
    rfl

/-- A placeholder is closed by the same brace whatever follows this. -/
theorem cutClosing?_append {depth : Nat} {rest body tail : List Char}
    (closing : cutClosing? depth rest = some (body, tail)) (more : List Char) :
    cutClosing? depth (body ++ '}' :: more) = some (body, more) := by
  fun_induction cutClosing? depth rest generalizing body tail with
  | case1 => cases closing
  | case2 depth rest inductionHypothesis =>
    obtain ⟨⟨inner, _⟩, closes, same⟩ := Option.map_eq_some_iff.mp closing
    cases same
    simp only [List.cons_append, cutClosing?, inductionHypothesis closes]
    rfl
  | case3 rest =>
    cases closing
    rfl
  | case4 rest depth inductionHypothesis =>
    obtain ⟨⟨inner, _⟩, closes, same⟩ := Option.map_eq_some_iff.mp closing
    cases same
    simp only [List.cons_append, cutClosing?, inductionHypothesis closes]
    rfl
  | case5 depth c rest notOpening notClosing inductionHypothesis =>
    obtain ⟨⟨inner, _⟩, closes, same⟩ := Option.map_eq_some_iff.mp closing
    cases same
    have stillNotOpening : ∀ others, c = '$' → inner ++ '}' :: more = '{' :: others → False := by
      intro others isDollar opens
      cases inner with
      | nil => cases opens
      | cons first inner =>
        obtain ⟨rfl, _⟩ := List.cons.inj opens
        exact notOpening _ isDollar (eq_of_cutClosing? closes)
    rw [List.cons_append, cutClosing?.eq_5 _ _ _ stillNotOpening notClosing,
      inductionHypothesis closes]
    rfl

/-! ### The expansion of what is cut -/

section Expand

variable {find : String → Except Error (Option String)} {enterable entered : List String}

theorem expand_cons {c : Char} {rest : List Char}
    (notOpening : ∀ others, c = '$' → rest = '{' :: others → False) :
    expand find enterable entered (c :: rest) = do
      let following ← expand find enterable entered rest
      return c :: following := by
  have isCut : cutOpening? (c :: rest) =
      (cutOpening? rest).map fun (before, inside) => (c :: before, inside) :=
    cutOpening?.eq_3 c rest notOpening
  cases opening : cutOpening? rest with
  | none =>
    rw [opening] at isCut
    rw [expand_of_none opening, expand_of_none isCut]
    rfl
  | some opened =>
    obtain ⟨before, inside⟩ := opened
    rw [opening] at isCut
    cases closing : cutClosing? 0 inside with
    | none =>
      rw [expand_of_unclosed opening closing, expand_of_unclosed isCut closing]
      rfl
    | some closed =>
      rw [expand_of_placeholder opening closing, expand_of_placeholder isCut closing]
      simp only [bind_assoc, pure_bind, List.cons_append]

/-- A placeholder at the start of a text is expanded first, and then what follows it. -/
theorem expand_opening {rest body tail : List Char}
    (closing : cutClosing? 0 rest = some (body, tail)) :
    expand find enterable entered ('$' :: '{' :: rest) = do
      let inside ← expand find enterable entered body
      let value ← filling find enterable entered inside
      let following ← expand find enterable entered tail
      return value ++ following := by
  have opening : cutOpening? ('$' :: '{' :: rest) = some ([], rest) := rfl
  simp only [expand_of_placeholder opening closing, List.nil_append]

/-- The key, the colon that is cut at, and the default are expanded one after the other. -/
theorem expand_of_cutOuter {text key fallback : List Char}
    (cut : cutOuter? 0 text = some (key, fallback)) :
    expand find enterable entered text = do
      let expandedKey ← expand find enterable entered key
      let expandedFallback ← expand find enterable entered fallback
      return expandedKey ++ ':' :: expandedFallback := by
  rcases isText : text with _ | ⟨c, rest⟩ <;> rw [isText] at cut
  · cases cut
  by_cases opens : ∃ inside, c = '$' ∧ rest = '{' :: inside
  · obtain ⟨inside, rfl, rfl⟩ := opens
    rw [cutOuter?, cutOuter?_inside] at cut
    cases closing : cutClosing? 0 inside with
    | none =>
      rw [closing] at cut
      cases cut
    | some closed =>
      obtain ⟨body, tail⟩ := closed
      rw [closing] at cut
      obtain ⟨⟨inner, _⟩, cutInside, same⟩ := Option.map_eq_some_iff.mp cut
      obtain ⟨⟨later, _⟩, cutTail, sameInner⟩ := Option.map_eq_some_iff.mp cutInside
      cases sameInner
      cases same
      have tailShorter : tail.length < text.length := by
        have := length_cutClosing closing
        rw [isText, List.length_cons, List.length_cons]
        omega
      rw [expand_opening closing, expand_opening (cutClosing?_append closing later),
        expand_of_cutOuter cutTail]
      simp only [bind_assoc, pure_bind, List.append_assoc]
  · have notOpening : ∀ others, c = '$' → rest = '{' :: others → False :=
      fun others isDollar isBrace => opens ⟨others, isDollar, isBrace⟩
    by_cases isColon : c = ':'
    · rw [isColon, show cutOuter? 0 (':' :: rest) = some ([], rest) from rfl] at cut
      cases cut
      rw [expand_cons notOpening, expand_of_none (show cutOpening? [] = none from rfl), isColon]
      rfl
    · rw [cutOuter?_cons notOpening isColon] at cut
      obtain ⟨⟨inner, _⟩, cutRest, same⟩ := Option.map_eq_some_iff.mp cut
      cases same
      have innerNotOpening : ∀ others, c = '$' → inner = '{' :: others → False := by
        rintro others isDollar rfl
        exact notOpening _ isDollar (eq_of_cutOuter? cutRest)
      have restShorter : rest.length < text.length := by
        rw [isText, List.length_cons]
        exact Nat.lt_succ_self _
      rw [expand_cons notOpening, expand_cons innerNotOpening, expand_of_cutOuter cutRest]
      simp only [bind_assoc, pure_bind, List.cons_append]
  termination_by text.length

/-- The inside of a placeholder is expanded as a key and a default, one after the other. -/
theorem expand_body (body : List Char) :
    expand find enterable entered body = do
      let key ← expand find enterable entered (cutWritten body).1
      let fallback ← (cutWritten body).2.mapM (expand find enterable entered)
      return joined key fallback := by
  unfold cutWritten
  cases cut : cutOuter? 0 body with
  | none =>
    show _ = expand find enterable entered body >>= pure
    rw [bind_pure]
  | some parts =>
    rw [expand_of_cutOuter cut]
    simp only [Option.mapM_some, map_eq_pure_bind, bind_assoc, pure_bind, joined]

/-- A placeholder makes way for what its expanded key and its expanded default, joined again, are
taken for. -/
theorem expand_of_parts {text before body tail : List Char}
    (first : first? text = some (before, body, tail)) :
    expand find enterable entered text = do
      let key ← expand find enterable entered (cutWritten body).1
      let fallback ← (cutWritten body).2.mapM (expand find enterable entered)
      let value ← filling find enterable entered (joined key fallback)
      let following ← expand find enterable entered tail
      return before ++ value ++ following := by
  rw [expand_of_first first, expand_body]
  simp only [bind_assoc, pure_bind]

/-! ### What is written -/

/-- Expands a text as its placeholders are written.

A placeholder makes way for the expansion of the raw value of its expanded key; without a raw value
for the expansion of its default; and without a default it stays. -/
def expandAsWritten (find : String → Except Error (Option String))
    (enterable entered : List String) (text : List Char) : Except Error (List Char) :=
  match first : first? text with
  | none => .ok text
  | some (before, body, tail) => do
    have := length_of_first first
    have partsShorter := length_cutWritten body
    let expandedKey ← expandAsWritten find enterable entered (cutWritten body).1
    let key := String.ofList expandedKey
    let value ← find key >>= fun
      | some raw =>
        if member : canonical key ∈ enterable then
          have := length_without_lt member
          expandAsWritten find (without (canonical key) enterable) (entered ++ [key]) raw.toList
        else .error (.cycle (cycleOf entered key))
      | none =>
        match isDefault : (cutWritten body).2 with
        | some fallback =>
          have := partsShorter.2 fallback isDefault
          expandAsWritten find enterable entered fallback
        | none => .ok ('$' :: '{' :: body ++ ['}'])
    let following ← expandAsWritten find enterable entered tail
    return before ++ value ++ following
  termination_by (enterable.length, text.length)

/-- What a placeholder makes way for as it is written, given its expanded key. -/
def fillingAsWritten (find : String → Except Error (Option String))
    (enterable entered : List String) (body expandedKey : List Char) : Except Error (List Char) :=
  let key := String.ofList expandedKey
  find key >>= fun
    | some raw =>
      if canonical key ∈ enterable then
        expandAsWritten find (without (canonical key) enterable) (entered ++ [key]) raw.toList
      else .error (.cycle (cycleOf entered key))
    | none =>
      match (cutWritten body).2 with
      | some fallback => expandAsWritten find enterable entered fallback
      | none => .ok ('$' :: '{' :: body ++ ['}'])

theorem expandAsWritten_of_plain {text : List Char} (none : first? text = none) :
    expandAsWritten find enterable entered text = .ok text := by
  rw [expandAsWritten]
  split
  · rfl
  · next some => cases none.symm.trans some

theorem expandAsWritten_of_first {text before body tail : List Char}
    (first : first? text = some (before, body, tail)) :
    expandAsWritten find enterable entered text = do
      let key ← expandAsWritten find enterable entered (cutWritten body).1
      let value ← fillingAsWritten find enterable entered body key
      let following ← expandAsWritten find enterable entered tail
      return before ++ value ++ following := by
  rw [expandAsWritten]
  split
  · next none => cases none.symm.trans first
  · next some =>
    cases some.symm.trans first
    refine bind_congr fun expandedKey => ?_
    unfold fillingAsWritten
    dsimp only
    refine congrArg (· >>= _) (bind_congr fun raw? => ?_)
    cases raw? with
    | some raw => rfl
    | none =>
      dsimp only
      split <;> next isDefault => rw [isDefault]

theorem cutDefault_joined {key : List Char} (noColon : ':' ∉ key)
    (fallback : Option (List Char)) : cutDefault (joined key fallback) = (key, fallback) := by
  unfold cutDefault
  cases fallback with
  | none =>
    cases isCut : cutOnce? ':' key with
    | none => rw [joined, isCut]
    | some parts =>
      refine absurd ?_ noColon
      rw [eq_of_cutOnce? isCut]
      exact List.mem_append_right _ List.mem_cons_self
  | some fallback =>
    have differs : ∀ c ∈ key, c ≠ ':' := by
      rintro _ member rfl
      exact noColon member
    rw [joined, cutOnce?_append differs]

/-- A key without a colon is what the joined inside asks for, with the default for its own. -/
theorem filling_joined {key : List Char} (noColon : ':' ∉ key) (fallback : Option (List Char)) :
    filling find enterable entered (joined key fallback) =
      find (String.ofList key) >>= fun
        | some raw =>
          if canonical (String.ofList key) ∈ enterable then
            expand find (without (canonical (String.ofList key)) enterable)
              (entered ++ [String.ofList key]) raw.toList
          else .error (.cycle (cycleOf entered (String.ofList key)))
        | none => .ok (fallback.getD ('$' :: '{' :: key ++ ['}'])) := by
  have isUnresolved : unresolved (joined key fallback) =
      fallback.getD ('$' :: '{' :: key ++ ['}']) := by
    rw [unresolved, cutDefault_joined noColon]
    cases fallback <;> rfl
  rw [filling, isUnresolved, cutDefault_joined noColon]
  refine bind_congr fun raw? => ?_
  cases raw? <;> rfl

end Expand

/-! ### Where the two part -/

/-- A placeholder with this inside and this expanded key is not taken as it is written. -/
inductive Departs (find : String → Except Error (Option String))
    (enterable entered : List String) (body key : List Char) : Prop
  /-- A colon in the expanded key would be taken for that of the default. -/
  | colon (hasColon : ':' ∈ key)
  /-- The default is not needed, and its expansion fails. -/
  | unneeded {written : List Char} {cause : Error} (isDefault : (cutWritten body).2 = some written)
    (needless : find (String.ofList key) ≠ .ok none)
    (fails : expand find enterable entered written = .error cause)
  /-- The placeholder stays, with another key than the written one. -/
  | changed (noDefault : (cutWritten body).2 = none) (absent : find (String.ofList key) = .ok none)
    (differs : key ≠ body)

/-- The expansion of a text comes to a placeholder that is not taken as it is written. -/
inductive Strays (find : String → Except Error (Option String)) :
    (enterable entered : List String) → (text : List Char) → Prop
  | here {enterable entered : List String} {text before body tail key : List Char}
    (first : first? text = some (before, body, tail))
    (expands : expand find enterable entered (cutWritten body).1 = .ok key)
    (departs : Departs find enterable entered body key) : Strays find enterable entered text
  | inKey {enterable entered : List String} {text before body tail : List Char}
    (first : first? text = some (before, body, tail))
    (strays : Strays find enterable entered (cutWritten body).1) :
    Strays find enterable entered text
  | inDefault {enterable entered : List String} {text before body tail key written : List Char}
    (first : first? text = some (before, body, tail))
    (expands : expand find enterable entered (cutWritten body).1 = .ok key)
    (isDefault : (cutWritten body).2 = some written)
    (absent : find (String.ofList key) = .ok none)
    (strays : Strays find enterable entered written) : Strays find enterable entered text
  | inValue {enterable entered : List String} {text before body tail key : List Char}
    {raw : String} (first : first? text = some (before, body, tail))
    (expands : expand find enterable entered (cutWritten body).1 = .ok key)
    (present : find (String.ofList key) = .ok (some raw))
    (member : canonical (String.ofList key) ∈ enterable)
    (strays : Strays find (without (canonical (String.ofList key)) enterable)
      (entered ++ [String.ofList key]) raw.toList) : Strays find enterable entered text
  /-- The rest of a text is come to if the placeholder before it makes way for something. -/
  | inTail {enterable entered : List String} {text before body tail key value : List Char}
    (first : first? text = some (before, body, tail))
    (expands : expand find enterable entered (cutWritten body).1 = .ok key)
    (fills : fillingAsWritten find enterable entered body key = .ok value)
    (strays : Strays find enterable entered tail) : Strays find enterable entered text

section Faithful

variable {find : String → Except Error (Option String)} {enterable entered : List String}

/-- A placeholder that does not depart makes way for what is written, if its default and its raw
value are expanded as they are written. -/
theorem fillingAsWritten_of_parts {body key : List Char}
    (faithful : ¬Departs find enterable entered body key)
    (sameDefault : ∀ written, (cutWritten body).2 = some written →
      find (String.ofList key) = .ok none →
        expand find enterable entered written = expandAsWritten find enterable entered written)
    (sameValue : ∀ raw, find (String.ofList key) = .ok (some raw) →
      canonical (String.ofList key) ∈ enterable →
        expand find (without (canonical (String.ofList key)) enterable)
          (entered ++ [String.ofList key]) raw.toList =
        expandAsWritten find (without (canonical (String.ofList key)) enterable)
          (entered ++ [String.ofList key]) raw.toList) :
    ((cutWritten body).2.mapM (expand find enterable entered) >>= fun fallback =>
      filling find enterable entered (joined key fallback)) =
        fillingAsWritten find enterable entered body key := by
  have noColon : ':' ∉ key := fun hasColon => faithful (.colon hasColon)
  have succeeds (needless : find (String.ofList key) ≠ .ok none) :
      ∃ fallback, (cutWritten body).2.mapM (expand find enterable entered) = .ok fallback := by
    cases isDefault : (cutWritten body).2 with
    | none => exact ⟨none, rfl⟩
    | some written =>
      cases outcome : expand find enterable entered written with
      | error cause => exact absurd (.unneeded isDefault needless outcome) faithful
      | ok fallback => exact ⟨some fallback, by rw [Option.mapM_some, outcome]; rfl⟩
  simp only [filling_joined noColon, fillingAsWritten]
  rcases found : find (String.ofList key) with cause | _ | raw
  · obtain ⟨fallback, isFallback⟩ := succeeds (by rw [found]; exact nofun)
    rw [isFallback]
    rfl
  · cases isDefault : (cutWritten body).2 with
    | none =>
      have unchanged : key = body :=
        not_not.mp fun differs => faithful (.changed isDefault found differs)
      rw [unchanged]
      rfl
    | some written =>
      show _ = expandAsWritten find enterable entered written
      rw [Option.mapM_some, sameDefault written isDefault found]
      cases expandAsWritten find enterable entered written <;> rfl
  · obtain ⟨fallback, isFallback⟩ := succeeds (by rw [found]; exact nofun)
    rw [isFallback]
    show ite _ _ _ = ite _ _ _
    by_cases member : canonical (String.ofList key) ∈ enterable
    · rw [if_pos member, if_pos member, sameValue raw found member]
    · rw [if_neg member, if_neg member]

/-- A text that does not stray is expanded as it is written. -/
theorem expand_of_not_strays (enterable entered : List String) (text : List Char)
    (faithful : ¬Strays find enterable entered text) :
    expand find enterable entered text = expandAsWritten find enterable entered text := by
  cases first : first? text with
  | none => rw [expand_of_plain first, expandAsWritten_of_plain first]
  | some cut =>
    obtain ⟨before, body, tail⟩ := cut
    obtain ⟨bodyShorter, tailShorter⟩ := length_of_first first
    obtain ⟨keyShorter, fallbackShorter⟩ := length_cutWritten body
    have sameKey := expand_of_not_strays enterable entered (cutWritten body).1
      fun strays => faithful (.inKey first strays)
    rw [expand_of_parts first, expandAsWritten_of_first first, ← sameKey]
    cases expands : expand find enterable entered (cutWritten body).1 with
    | error cause => rfl
    | ok key =>
      have sameFilling := fillingAsWritten_of_parts
        (fun departs => faithful (.here first expands departs))
        (fun written isDefault absent =>
          have shorter := fallbackShorter written isDefault
          expand_of_not_strays enterable entered written
            fun strays => faithful (.inDefault first expands isDefault absent strays))
        (fun raw present member =>
          have fewer := length_without_lt member
          expand_of_not_strays _ _ raw.toList
            fun strays => faithful (.inValue first expands present member strays))
      show (_ >>= fun fallback => filling find enterable entered (joined key fallback) >>= _) =
        fillingAsWritten find enterable entered body key >>= _
      rw [← bind_assoc, sameFilling]
      cases fills : fillingAsWritten find enterable entered body key with
      | error cause => rfl
      | ok value =>
        have sameTail := expand_of_not_strays enterable entered tail
          fun strays => faithful (.inTail first expands fills strays)
        rw [sameTail]
  termination_by (enterable.length, text.length)

end Faithful

/-! ### Placeholders that do not nest -/

/-- No placeholder of a text has another one in it. -/
inductive Flat : List Char → Prop
  | plain {text : List Char} (none : first? text = none) : Flat text
  | placeholder {text before body tail : List Char}
    (first : first? text = some (before, body, tail)) (opensNone : cutOpening? body = none)
    (rest : Flat tail) : Flat text

section Flat

variable {text before body tail : List Char}

theorem Flat.of_opensNone (opensNone : cutOpening? text = none) : Flat text :=
  .plain (by rw [first?, opensNone]; rfl)

theorem Flat.parts (flat : Flat text) (first : first? text = some (before, body, tail)) :
    cutOpening? body = none ∧ Flat tail := by
  cases flat with
  | plain none => cases none.symm.trans first
  | placeholder otherFirst opensNone rest =>
    cases otherFirst.symm.trans first
    exact ⟨opensNone, rest⟩

theorem opensNone_cons {c : Char} {rest : List Char} (opensNone : cutOpening? (c :: rest) = none) :
    (∀ others, c = '$' → rest = '{' :: others → False) ∧ cutOpening? rest = none := by
  have notOpening : ∀ others, c = '$' → rest = '{' :: others → False := by
    rintro others rfl rfl
    cases opensNone
  rw [cutOpening?.eq_3 _ _ notOpening, Option.map_eq_none_iff] at opensNone
  exact ⟨notOpening, opensNone⟩

theorem opensNone_append {left right : List Char} (opensNone : cutOpening? (left ++ right) = none) :
    cutOpening? left = none ∧ cutOpening? right = none := by
  induction left with
  | nil => exact ⟨rfl, opensNone⟩
  | cons c left inductionHypothesis =>
    obtain ⟨notOpening, restOpensNone⟩ := opensNone_cons opensNone
    obtain ⟨leftOpensNone, rightOpensNone⟩ := inductionHypothesis restOpensNone
    have stillNotOpening : ∀ others, c = '$' → left = '{' :: others → False := by
      rintro others isDollar rfl
      exact notOpening _ isDollar rfl
    rw [cutOpening?.eq_3 _ _ stillNotOpening, leftOpensNone]
    exact ⟨rfl, rightOpensNone⟩

theorem opensNone_cutWritten (opensNone : cutOpening? body = none) :
    cutOpening? (cutWritten body).1 = none ∧
      ∀ written, (cutWritten body).2 = some written → cutOpening? written = none := by
  rw [← joined_cutWritten body] at opensNone
  cases isDefault : (cutWritten body).2 with
  | none =>
    rw [isDefault] at opensNone
    exact ⟨opensNone, fun _ same => nomatch same⟩
  | some written =>
    rw [isDefault, joined] at opensNone
    obtain ⟨keyOpensNone, restOpensNone⟩ := opensNone_append opensNone
    refine ⟨keyOpensNone, fun _ same => ?_⟩
    rw [← Option.some.inj same]
    exact (opensNone_cons restOpensNone).2

theorem cutWritten_cons {c : Char} {rest : List Char}
    (notOpening : ∀ others, c = '$' → rest = '{' :: others → False) (notColon : c ≠ ':') :
    cutWritten (c :: rest) = (c :: (cutWritten rest).1, (cutWritten rest).2) := by
  rw [cutWritten, cutWritten, cutOuter?_cons notOpening notColon]
  cases cutOuter? 0 rest <;> rfl

/-- Where no placeholder is opened, the cut is at the very first colon. -/
theorem notMem_cutWritten (opensNone : cutOpening? body = none) : ':' ∉ (cutWritten body).1 := by
  induction body with
  | nil => exact List.not_mem_nil
  | cons c rest inductionHypothesis =>
    obtain ⟨notOpening, restOpensNone⟩ := opensNone_cons opensNone
    by_cases isColon : c = ':'
    · rw [isColon]
      exact List.not_mem_nil
    · rw [cutWritten_cons notOpening isColon, List.mem_cons, not_or]
      exact ⟨Ne.symm isColon, inductionHypothesis restOpensNone⟩

/-- Where placeholders do not nest, each of them is taken as it is written. -/
theorem not_strays_of_flat {find : String → Except Error (Option String)}
    {enterable entered : List String}
    (flatRaws : ∀ key raw, find key = .ok (some raw) → Flat raw.toList) (flat : Flat text) :
    ¬Strays find enterable entered text := by
  intro strays
  induction strays with
  | @here _ _ _ _ body _ _ first expands departs =>
    obtain ⟨opensNone, _⟩ := flat.parts first
    obtain ⟨keyOpensNone, defaultOpensNone⟩ := opensNone_cutWritten opensNone
    rw [expand_of_none keyOpensNone] at expands
    cases expands
    cases departs with
    | colon hasColon => exact notMem_cutWritten opensNone hasColon
    | unneeded isDefault _ fails =>
      rw [expand_of_none (defaultOpensNone _ isDefault)] at fails
      cases fails
    | changed noDefault _ differs =>
      have whole := joined_cutWritten body
      rw [noDefault, joined] at whole
      exact differs whole
  | inKey first _ inductionHypothesis =>
    exact inductionHypothesis (.of_opensNone (opensNone_cutWritten (flat.parts first).1).1)
  | inDefault first _ isDefault _ _ inductionHypothesis =>
    exact inductionHypothesis
      (.of_opensNone ((opensNone_cutWritten (flat.parts first).1).2 _ isDefault))
  | inValue _ _ present _ _ inductionHypothesis => exact inductionHypothesis (flatRaws _ _ present)
  | inTail first _ _ _ inductionHypothesis => exact inductionHypothesis (flat.parts first).2

end Flat

/-! ### A text that is one placeholder -/

section Whole

variable {find : String → Except Error (Option String)} {enterable entered : List String}
  {text body : List Char}

/-- A text that is a placeholder and nothing else is expanded to what this makes way for. -/
theorem expand_of_whole (whole : first? text = some ([], body, [])) {inside : List Char}
    (expands : expand find enterable entered body = .ok inside) :
    expand find enterable entered text = filling find enterable entered inside := by
  rw [expand_of_first whole, expands, expand_of_plain (show first? [] = none from rfl)]
  show (filling find enterable entered inside >>= fun value => pure ([] ++ value ++ [])) = _
  simp only [List.nil_append, List.append_nil, bind_pure]

theorem expandAsWritten_of_whole (whole : first? text = some ([], body, [])) {key : List Char}
    (expands : expandAsWritten find enterable entered (cutWritten body).1 = .ok key) :
    expandAsWritten find enterable entered text =
      fillingAsWritten find enterable entered body key := by
  rw [expandAsWritten_of_first whole, expands,
    expandAsWritten_of_plain (show first? [] = none from rfl)]
  show (fillingAsWritten find enterable entered body key >>= fun value =>
    pure ([] ++ value ++ [])) = _
  simp only [List.nil_append, List.append_nil, bind_pure]

/-- A default that cannot be expanded is an error, whether it is needed or not. -/
theorem expand_of_failing_default {before tail key fallback : List Char} {cause : Error}
    (first : first? text = some (before, body, tail))
    (expands : expand find enterable entered (cutWritten body).1 = .ok key)
    (isDefault : (cutWritten body).2 = some fallback)
    (fails : expand find enterable entered fallback = .error cause) :
    expand find enterable entered text = .error cause := by
  rw [expand_of_parts first, expands, isDefault, Option.mapM_some, fails]
  rfl

end Whole

/-! ### Any text -/

/-- A placeholder makes way for what its expanded key and its expanded default, joined again, are
taken for; a text is therefore expanded as it is written, unless it strays on the way. Texts and raw
values in which placeholders do not nest never do. -/
theorem expands_as_written (find : String → Except Error (Option String))
    (enterable entered : List String) (text : List Char) :
    (expand find enterable entered text =
      match first? text with
      | none => .ok text
      | some (before, body, tail) => do
        let key ← expand find enterable entered (cutWritten body).1
        let fallback ← (cutWritten body).2.mapM (expand find enterable entered)
        let value ← filling find enterable entered (joined key fallback)
        let following ← expand find enterable entered tail
        return before ++ value ++ following) ∧
    (expand find enterable entered text = expandAsWritten find enterable entered text ∨
      Strays find enterable entered text) ∧
    ((∀ key raw, find key = .ok (some raw) → Flat raw.toList) → Flat text →
      expand find enterable entered text = expandAsWritten find enterable entered text) := by
  refine ⟨?_, ?_, fun flatRaws flat => ?_⟩
  · cases first : first? text with
    | none => exact expand_of_plain first
    | some cut => exact expand_of_parts first
  · exact or_iff_not_imp_right.mpr (expand_of_not_strays enterable entered text)
  · exact expand_of_not_strays enterable entered text (not_strays_of_flat flatRaws flat)

/-- Raw values, with a colon in one, and one that leads back to itself. -/
def crossedRaws (key : String) : Except Error (Option String) :=
  .ok ([("set", "v"), ("list", "b:c"), ("b:c", "v"), ("self", "${self}")].lookup key)

/-- The names of these raw values. -/
def crossedNames : List String := ["set", "list", "b:c", "self"]

/-- A flat text with a default for a name that has a raw value, and one for a name that has none. -/
theorem expands_as_written_crossedRaws :
    (∀ key raw, crossedRaws key = .ok (some raw) → Flat raw.toList) ∧
    Flat "${set:w}-${unset:a:b}".toList ∧
    expand crossedRaws crossedNames [] "${set:w}-${unset:a:b}".toList =
      expandAsWritten crossedRaws crossedNames [] "${set:w}-${unset:a:b}".toList := by
  have flatRaws : ∀ key raw, crossedRaws key = .ok (some raw) → Flat raw.toList := by
    intro key raw found
    have member := View.mem_of_lookup (Except.ok.inj found)
    simp only [List.mem_cons, Prod.mk.injEq, List.not_mem_nil, or_false] at member
    rcases member with ⟨_, rfl⟩ | ⟨_, rfl⟩ | ⟨_, rfl⟩ | ⟨_, rfl⟩
    · exact .plain rfl
    · exact .plain rfl
    · exact .plain rfl
    · exact .placeholder rfl rfl (.plain rfl)
  have flat : Flat "${set:w}-${unset:a:b}".toList :=
    .placeholder rfl rfl (.placeholder rfl rfl (.plain rfl))
  exact ⟨flatRaws, flat, (expands_as_written _ _ _ _).2.2 flatRaws flat⟩

/-- A colon in a nested value cuts, a default that is not needed fails, and a placeholder that stays
is changed. -/
theorem expansion_departs :
    (expandAsWritten crossedRaws crossedNames [] "${${list}}".toList = .ok "v".toList ∧
      expand crossedRaws crossedNames [] "${${list}}".toList = .ok "c".toList) ∧
    (expandAsWritten crossedRaws crossedNames [] "${set:${self}}".toList = .ok "v".toList ∧
      expand crossedRaws crossedNames [] "${set:${self}}".toList =
        .error (.cycle ["self", "self"])) ∧
    (expandAsWritten crossedRaws crossedNames [] "${${set}}".toList = .ok "${${set}}".toList ∧
      expand crossedRaws crossedNames [] "${${set}}".toList = .ok "${v}".toList) := by
  have list : first? "${list}".toList = some ([], "list".toList, []) := rfl
  have set : first? "${set}".toList = some ([], "set".toList, []) := rfl
  have self : first? "${self}".toList = some ([], "self".toList, []) := rfl
  have nestedList : first? "${${list}}".toList = some ([], "${list}".toList, []) := rfl
  have nestedSet : first? "${${set}}".toList = some ([], "${set}".toList, []) := rfl
  have setOrSelf : first? "${set:${self}}".toList = some ([], "set:${self}".toList, []) := rfl
  refine ⟨⟨?_, ?_⟩, ⟨?_, ?_⟩, ?_, ?_⟩
  · have key : expandAsWritten crossedRaws crossedNames [] "${list}".toList = .ok "b:c".toList :=
      (expandAsWritten_of_whole list (expandAsWritten_of_plain rfl)).trans
        (expandAsWritten_of_plain rfl)
    exact (expandAsWritten_of_whole nestedList key).trans (expandAsWritten_of_plain rfl)
  · have inside : expand crossedRaws crossedNames [] "${list}".toList = .ok "b:c".toList :=
      (expand_of_whole list (expand_of_plain rfl)).trans (expand_of_plain rfl)
    exact expand_of_whole nestedList inside
  · exact (expandAsWritten_of_whole setOrSelf (expandAsWritten_of_plain rfl)).trans
      (expandAsWritten_of_plain rfl)
  · have entersAgain : expand crossedRaws ["set", "list", "b:c"] ["self"] "${self}".toList =
        .error (.cycle ["self", "self"]) := expand_of_whole self (expand_of_plain rfl)
    exact expand_of_failing_default setOrSelf (expand_of_plain rfl) rfl
      ((expand_of_whole self (expand_of_plain rfl)).trans entersAgain)
  · have key : expandAsWritten crossedRaws crossedNames [] "${set}".toList = .ok "v".toList :=
      (expandAsWritten_of_whole set (expandAsWritten_of_plain rfl)).trans
        (expandAsWritten_of_plain rfl)
    exact expandAsWritten_of_whole nestedSet key
  · have inside : expand crossedRaws crossedNames [] "${set}".toList = .ok "v".toList :=
      (expand_of_whole set (expand_of_plain rfl)).trans (expand_of_plain rfl)
    exact expand_of_whole nestedSet inside

end Placeholder

end LayeredConfig
