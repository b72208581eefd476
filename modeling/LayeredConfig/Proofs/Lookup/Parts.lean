/-
This file reads a text as literal pieces and placeholders, without a scan.

Between two placeholders stands one literal piece, which may be empty, and the inside of a
placeholder is put together in the same way. A literal piece opens no placeholder, and one inside of
a placeholder does not close it either: so a placeholder is closed by the first brace that closes no
inner one. What begins with a `${` that is never closed ends the text, whatever it holds. Every text
has exactly one such reading, and it is the one that the expansion follows: literal pieces and the
unclosed end are copied, and each placeholder makes way for what it is expanded to by itself.
-/

import LayeredConfig.Proofs.Lookup.AsWritten
import Mathlib.Data.List.Infix

namespace LayeredConfig

open Text

namespace Placeholder

/-! ### Parts -/

/-- Literal pieces and placeholders in turn. -/
inductive Parts where
  | last (literal : List Char)
  | placeholder (literal : List Char) (body rest : Parts)

/-- The placeholder with an inside. -/
def enclosed (body : List Char) : List Char :=
  '$' :: '{' :: body ++ ['}']

/-- A literal piece opens no placeholder, and within one it does not close it. -/
structure IsLiteral (inside : Bool) (literal : List Char) : Prop where
  opensNone : ¬['$', '{'] <:+: literal
  closesNone : inside = true → '}' ∉ literal

instance (inside : Bool) (literal : List Char) : Decidable (IsLiteral inside literal) :=
  decidable_of_iff (¬['$', '{'] <:+: literal ∧ (inside = true → '}' ∉ literal))
    ⟨fun ⟨opensNone, closesNone⟩ => ⟨opensNone, closesNone⟩,
      fun ⟨opensNone, closesNone⟩ => ⟨opensNone, closesNone⟩⟩

namespace Parts

def text : Parts → List Char
  | last literal => literal
  | placeholder literal body rest => literal ++ enclosed body.text ++ rest.text

theorem text_append (literal : List Char) (body rest : Parts) (more : List Char) :
    (placeholder literal body rest).text ++ more =
      literal ++ '$' :: '{' :: (body.text ++ '}' :: (rest.text ++ more)) := by
  simp [text, enclosed]

/-- The insides of all placeholders, also of those inside of others. -/
def bodies : Parts → List Parts
  | last _ => []
  | placeholder _ body rest => body :: (body.bodies ++ rest.bodies)

/-- The parts with another text in place of each placeholder, from the first one to the last. -/
def replaced (own : List Char → Except Error (List Char)) : Parts → Except Error (List Char)
  | last literal => .ok literal
  | placeholder literal body rest => do
    let value ← own (enclosed body.text)
    let following ← rest.replaced own
    return literal ++ value ++ following

/-- The literal pieces are literal where they stand. -/
def Proper (inside : Bool) : Parts → Prop
  | last literal => IsLiteral inside literal
  | placeholder literal body rest =>
    IsLiteral inside literal ∧ body.Proper true ∧ rest.Proper inside

instance decidableProper (inside : Bool) : (parts : Parts) → Decidable (parts.Proper inside)
  | last literal => inferInstanceAs (Decidable (IsLiteral inside literal))
  | placeholder literal body rest =>
    have := decidableProper true body
    have := decidableProper inside rest
    inferInstanceAs (Decidable (IsLiteral inside literal ∧ body.Proper true ∧ rest.Proper inside))

end Parts

/-- A text in which no brace closes the placeholder that is opened in front of it. -/
def NeverCloses (text : List Char) : Prop :=
  ∀ body : Parts, body.Proper true → ∀ tail, text ≠ body.text ++ '}' :: tail

/-- Parts, and what follows the `${` behind them that is never closed, if there is one. -/
structure Reading where
  parts : Parts
  unclosed : Option (List Char)

/-- The end of a text from a `${` on. -/
def ending : Option (List Char) → List Char
  | some tail => '$' :: '{' :: tail
  | none => []

/-- A text is put together from these parts and this end. -/
structure Reads (text : List Char) (reading : Reading) : Prop where
  spelled : text = reading.parts.text ++ ending reading.unclosed
  proper : reading.parts.Proper false
  neverCloses : ∀ tail, reading.unclosed = some tail → NeverCloses tail

/-! ### Literal pieces -/

section Literal

variable {literal before inside text : List Char}

theorem IsLiteral.outside {within : Bool} (isLiteral : IsLiteral within literal) :
    IsLiteral false literal :=
  ⟨isLiteral.opensNone, nofun⟩

theorem isLiteral_nil (within : Bool) : IsLiteral within [] :=
  ⟨by simp, fun _ => List.not_mem_nil⟩

theorem opensNone_of_cons {c : Char} (opensNone : ¬['$', '{'] <:+: c :: literal) :
    ¬['$', '{'] <:+: literal :=
  fun opens => opensNone (List.infix_cons opens)

theorem infix_opening_cons {c : Char} {rest : List Char}
    (notOpening : ∀ others, c = '$' → rest = '{' :: others → False) :
    ['$', '{'] <:+: c :: rest ↔ ['$', '{'] <:+: rest := by
  have notPrefix : ¬['$', '{'] <+: c :: rest := by
    rintro ⟨others, same⟩
    obtain ⟨rfl, rfl⟩ := List.cons.inj same
    exact notOpening others rfl rfl
  rw [List.infix_cons_iff]
  exact or_iff_right notPrefix

/-- A character in front of a literal piece opens nothing if it does not in the whole text. -/
theorem opensNone_of_append {c : Char} {more : List Char} (opensNone : ¬['$', '{'] <:+: literal)
    (notOpening : ∀ others, c = '$' → literal ++ more = '{' :: others → False) :
    ¬['$', '{'] <:+: c :: literal := by
  rw [infix_opening_cons]
  · exact opensNone
  · rintro others isDollar rfl
    exact notOpening _ isDollar rfl

/-- What follows a literal piece opens a placeholder with it only if it begins with a brace. -/
theorem notOpening_append {c : Char} (rest : List Char)
    (opensNone : ¬['$', '{'] <:+: c :: literal) (notBrace : ∀ others, rest ≠ '{' :: others) :
    ∀ others, c = '$' → literal ++ rest = '{' :: others → False := by
  rintro others rfl same
  cases literal with
  | nil => exact notBrace others same
  | cons d literal =>
    obtain ⟨rfl, _⟩ := List.cons.inj same
    exact opensNone ⟨[], literal, rfl⟩

theorem cutOpening?_eq_none_iff : cutOpening? text = none ↔ ¬['$', '{'] <:+: text := by
  fun_induction cutOpening? text with
  | case1 => simp
  | case2 rest => simp [List.infix_cons_iff]
  | case3 c rest notOpening inductionHypothesis =>
    rw [Option.map_eq_none_iff, inductionHypothesis, infix_opening_cons notOpening]

theorem cutOpening?_append (opensNone : ¬['$', '{'] <:+: literal) (rest : List Char) :
    cutOpening? (literal ++ '$' :: '{' :: rest) = some (literal, rest) := by
  induction literal with
  | nil => rfl
  | cons c literal inductionHypothesis =>
    have notOpening := notOpening_append ('$' :: '{' :: rest) opensNone (by simp)
    rw [List.cons_append, cutOpening?.eq_3 _ _ notOpening,
      inductionHypothesis (opensNone_of_cons opensNone)]
    rfl

theorem of_cutOpening? (opening : cutOpening? text = some (before, inside)) :
    ¬['$', '{'] <:+: before ∧ text = before ++ '$' :: '{' :: inside := by
  fun_induction cutOpening? text generalizing before inside with
  | case1 => cases opening
  | case2 rest =>
    cases opening
    exact ⟨(isLiteral_nil false).opensNone, rfl⟩
  | case3 c rest notOpening inductionHypothesis =>
    obtain ⟨⟨earlier, _⟩, opensRest, same⟩ := Option.map_eq_some_iff.mp opening
    cases same
    obtain ⟨opensNone, rfl⟩ := inductionHypothesis opensRest
    exact ⟨opensNone_of_append opensNone notOpening, rfl⟩

end Literal

/-! ### The brace that closes a placeholder -/

/-- What a scan comes to, with more in front of what it passed. -/
def behind (front : List Char) (closed : Option (List Char × List Char)) :
    Option (List Char × List Char) :=
  closed.map fun (body, tail) => (front ++ body, tail)

theorem behind_nil (closed : Option (List Char × List Char)) : behind [] closed = closed := by
  cases closed <;> rfl

theorem behind_behind (front more : List Char) (closed : Option (List Char × List Char)) :
    behind front (behind more closed) = behind (front ++ more) closed := by
  cases closed <;> simp [behind]

section Closing

variable {literal text body tail : List Char} {parts : Parts}

theorem cutClosing?_of_literal (isLiteral : IsLiteral true literal) (depth : Nat)
    {rest : List Char} (notBrace : ∀ others, rest ≠ '{' :: others) :
    cutClosing? depth (literal ++ rest) = behind literal (cutClosing? depth rest) := by
  induction literal with
  | nil => exact (behind_nil _).symm
  | cons c literal inductionHypothesis =>
    obtain ⟨notClosing, closesNone⟩ :=
      List.ne_and_not_mem_of_not_mem_cons (isLiteral.closesNone rfl)
    have notOpening := notOpening_append rest isLiteral.opensNone notBrace
    have isRest : IsLiteral true literal :=
      ⟨opensNone_of_cons isLiteral.opensNone, fun _ => closesNone⟩
    rw [List.cons_append, cutClosing?.eq_5 _ _ _ notOpening (Ne.symm notClosing),
      inductionHypothesis isRest]
    exact behind_behind [c] literal _

/-- A scan passes over parts whose placeholders are closed. -/
theorem cutClosing?_of_proper (proper : parts.Proper true) (depth : Nat)
    {rest : List Char} (notBrace : ∀ others, rest ≠ '{' :: others) :
    cutClosing? depth (parts.text ++ rest) = behind parts.text (cutClosing? depth rest) := by
  induction parts generalizing depth rest with
  | last literal => exact cutClosing?_of_literal proper depth notBrace
  | placeholder literal body later bodyPasses laterPasses =>
    obtain ⟨isLiteral, within, after⟩ := proper
    -- An inner placeholder counts one up and its brace one down, so the depth is the same behind it.
    calc
      _ = behind literal (behind ['$', '{']
            (cutClosing? (depth + 1) (body.text ++ '}' :: (later.text ++ rest)))) := by
        rw [Parts.text_append, cutClosing?_of_literal isLiteral depth (by simp)]
        rfl
      _ = behind literal (behind ['$', '{'] (behind body.text (behind ['}']
            (cutClosing? depth (later.text ++ rest))))) := by
        rw [bodyPasses within (depth + 1) (by simp)]
        rfl
      _ = _ := by
        rw [laterPasses after depth notBrace]
        simp only [behind_behind]
        simp [Parts.text, enclosed]

theorem cutClosing?_of_closed (proper : parts.Proper true) (tail : List Char) :
    cutClosing? 0 (parts.text ++ '}' :: tail) = some (parts.text, tail) := by
  rw [cutClosing?_of_proper proper 0 (by simp)]
  show some (parts.text ++ [], tail) = _
  rw [List.append_nil]

namespace Parts

/-- The parts with a character in front of them. -/
def push (c : Char) : Parts → Parts
  | last literal => last (c :: literal)
  | placeholder literal body rest => placeholder (c :: literal) body rest

theorem text_push (c : Char) (parts : Parts) : (parts.push c).text = c :: parts.text := by
  cases parts <;> rfl

theorem Proper.push {inside : Bool} {c : Char} (proper : parts.Proper inside)
    (notOpening : ∀ others, c = '$' → parts.text = '{' :: others → False)
    (notClosing : inside = true → c ≠ '}') : (parts.push c).Proper inside := by
  have pushed {literal more : List Char} (isLiteral : IsLiteral inside literal)
      (isText : parts.text = literal ++ more) : IsLiteral inside (c :: literal) := by
    refine ⟨opensNone_of_append isLiteral.opensNone (isText ▸ notOpening), fun within member => ?_⟩
    rcases List.mem_cons.mp member with rfl | inLiteral
    · exact notClosing within rfl
    · exact isLiteral.closesNone within inLiteral
  cases parts with
  | last literal => exact pushed proper (List.append_nil literal).symm
  | placeholder literal body rest =>
    exact ⟨pushed proper.1 (List.append_assoc _ _ _), proper.2⟩

theorem Proper.outside {inside : Bool} (proper : parts.Proper inside) : parts.Proper false := by
  induction parts with
  | last => exact IsLiteral.outside proper
  | placeholder _ _ _ _ restOutside => exact ⟨proper.1.outside, proper.2.1, restOutside proper.2.2⟩

theorem proper_bodies {inside : Bool} (proper : parts.Proper inside) :
    ∀ body ∈ parts.bodies, body.Proper true := by
  induction parts generalizing inside with
  | last => exact fun _ member => absurd member List.not_mem_nil
  | placeholder _ body rest bodyProper restProper =>
    obtain ⟨_, within, after⟩ := proper
    intro other member
    rcases List.mem_cons.mp member with rfl | deeper
    · exact within
    · exact (List.mem_append.mp deeper).elim (bodyProper within other) (restProper after other)

end Parts

/-- A scan that comes to an end has passed over parts whose placeholders are closed. -/
theorem exists_parts_of_closing {depth : Nat} (text : List Char)
    (closes : cutClosing? depth text ≠ none) :
    ∃ parts : Parts, parts.Proper true ∧ ∃ tail, text = parts.text ++ '}' :: tail := by
  -- The recursion is on the length: what follows an inner placeholder is no call of its own.
  rcases isText : text with _ | ⟨c, rest⟩ <;> rw [isText] at closes
  · exact absurd rfl closes
  by_cases opens : ∃ inside, c = '$' ∧ rest = '{' :: inside
  · obtain ⟨inside, rfl, rfl⟩ := opens
    have closesInside : cutClosing? (depth + 1) inside ≠ none :=
      fun none => closes (by rw [cutClosing?, none]; rfl)
    have insideShorter : inside.length < text.length := by
      rw [isText, List.length_cons, List.length_cons]
      omega
    obtain ⟨body, within, later, rfl⟩ := exists_parts_of_closing _ closesInside
    -- Behind the inner placeholder, the scan goes on at the depth at which it began.
    have closesLater : cutClosing? depth later ≠ none := by
      rw [cutClosing?_of_proper within _ (by simp)] at closesInside
      exact fun none => closesInside (by rw [cutClosing?, none]; rfl)
    have laterShorter : later.length < text.length := by
      rw [List.length_append, List.length_cons] at insideShorter
      omega
    obtain ⟨after, afterProper, tail, rfl⟩ := exists_parts_of_closing _ closesLater
    exact ⟨.placeholder [] body after, ⟨isLiteral_nil true, within, afterProper⟩, tail,
      (Parts.text_append [] body after _).symm⟩
  · have notOpening : ∀ others, c = '$' → rest = '{' :: others → False :=
      fun others isDollar isBrace => opens ⟨others, isDollar, isBrace⟩
    by_cases isClosing : c = '}'
    · exact ⟨.last [], isLiteral_nil true, rest, by rw [isClosing]; rfl⟩
    · rw [cutClosing?.eq_5 _ _ _ notOpening isClosing, ne_eq, Option.map_eq_none_iff] at closes
      have restShorter : rest.length < text.length := by
        rw [isText, List.length_cons]
        exact Nat.lt_succ_self _
      obtain ⟨parts, proper, tail, rfl⟩ := exists_parts_of_closing _ closes
      refine ⟨parts.push c, proper.push (fun others isDollar same => ?_) fun _ => isClosing, tail,
        ?_⟩
      · exact notOpening _ isDollar (by rw [same]; rfl)
      · rw [Parts.text_push]
        rfl
  termination_by text.length

/-- The inside of a placeholder is made of parts whose placeholders are closed. -/
theorem exists_parts_of_cutClosing? (closing : cutClosing? 0 text = some (body, tail)) :
    ∃ parts : Parts, parts.Proper true ∧ parts.text = body ∧ text = body ++ '}' :: tail := by
  obtain ⟨parts, proper, later, rfl⟩ :=
    exists_parts_of_closing _ (by rw [closing]; exact Option.some_ne_none _)
  rw [cutClosing?_of_closed proper] at closing
  cases closing
  exact ⟨parts, proper, rfl, rfl⟩

theorem cutClosing?_eq_none_iff : cutClosing? 0 text = none ↔ NeverCloses text := by
  constructor
  · rintro none body proper tail rfl
    rw [cutClosing?_of_closed proper] at none
    cases none
  · intro neverCloses
    by_contra closes
    obtain ⟨parts, proper, tail, isText⟩ := exists_parts_of_closing _ closes
    exact neverCloses parts proper tail isText

end Closing

/-! ### The reading of a text -/

section Reads

variable {literal text : List Char} {body rest parts : Parts} {unclosed : Option (List Char)}

theorem reads_body (proper : body.Proper true) : Reads body.text ⟨body, none⟩ :=
  ⟨(List.append_nil _).symm, proper.outside, nofun⟩

/-- A text without a closed placeholder is literal up to the one that is never closed. -/
theorem Reads.first?_last (reads : Reads text ⟨.last literal, unclosed⟩) :
    first? text = none ∧ cutOpening? text = unclosed.map fun tail => (literal, tail) := by
  obtain ⟨rfl, isLiteral, neverCloses⟩ := reads
  cases unclosed with
  | none =>
    have opening : cutOpening? (literal ++ []) = none := by
      rw [List.append_nil]
      exact cutOpening?_eq_none_iff.mpr isLiteral.opensNone
    exact ⟨by rw [first?]; exact congrArg (· >>= _) opening, opening⟩
  | some tail =>
    have opening := cutOpening?_append isLiteral.opensNone tail
    have closing := cutClosing?_eq_none_iff.mpr (neverCloses tail rfl)
    refine ⟨?_, opening⟩
    show first? (literal ++ '$' :: '{' :: tail) = none
    rw [first?, opening]
    show (cutClosing? 0 tail >>= _) = none
    rw [closing]
    rfl

/-- The first placeholder of a text is the first one that it is read with. -/
theorem Reads.first?_placeholder (reads : Reads text ⟨.placeholder literal body rest, unclosed⟩) :
    first? text = some (literal, body.text, rest.text ++ ending unclosed) ∧
      Reads body.text ⟨body, none⟩ ∧ Reads (rest.text ++ ending unclosed) ⟨rest, unclosed⟩ := by
  obtain ⟨rfl, ⟨isLiteral, within, after⟩, neverCloses⟩ := reads
  refine ⟨?_, reads_body within, rfl, after, neverCloses⟩
  show first? ((Parts.placeholder literal body rest).text ++ ending unclosed) = _
  rw [Parts.text_append, first?, cutOpening?_append isLiteral.opensNone]
  show (cutClosing? 0 (body.text ++ _) >>= _) = _
  rw [cutClosing?_of_closed within]
  rfl

theorem Reads.unique {other : Reading} (reads : Reads text ⟨parts, unclosed⟩)
    (also : Reads text other) : other = ⟨parts, unclosed⟩ := by
  -- Both readings begin with what the scans find first in the text, and what is left is shorter.
  induction parts generalizing text unclosed other with
  | last literal =>
    obtain ⟨first, opening⟩ := reads.first?_last
    obtain ⟨otherLiteral | _, otherUnclosed⟩ := other
    · have same := opening.symm.trans also.first?_last.2
      cases unclosed with
      | none =>
        cases otherUnclosed with
        | none =>
          obtain rfl := List.append_cancel_right (reads.spelled.symm.trans also.spelled)
          rfl
        | some => cases same
      | some tail =>
        cases otherUnclosed with
        | none => cases same
        | some =>
          cases same
          rfl
    · cases first.symm.trans also.first?_placeholder.1
  | placeholder literal body rest bodyUnique restUnique =>
    obtain ⟨first, readsBody, readsRest⟩ := reads.first?_placeholder
    obtain ⟨_ | ⟨_, otherBody, otherRest⟩, otherUnclosed⟩ := other
    · cases also.first?_last.1.symm.trans first
    · obtain ⟨otherFirst, alsoBody, alsoRest⟩ := also.first?_placeholder
      obtain ⟨rfl, same⟩ := Prod.mk.inj (Option.some.inj (first.symm.trans otherFirst))
      obtain ⟨sameBody, sameRest⟩ := Prod.mk.inj same
      rw [← sameBody] at alsoBody
      rw [← sameRest] at alsoRest
      cases bodyUnique readsBody alsoBody
      cases restUnique readsRest alsoRest
      rfl

theorem exists_reads (text : List Char) : ∃ reading, Reads text reading := by
  rcases first_cases text with
    ⟨_, opening | ⟨before, inside, opening, closing⟩⟩ |
      ⟨before, inside, body, tail, first, opening, closing⟩
  · exact ⟨⟨.last text, none⟩, (List.append_nil _).symm,
      IsLiteral.mk (cutOpening?_eq_none_iff.mp opening) nofun, nofun⟩
  · obtain ⟨opensNone, isText⟩ := of_cutOpening? opening
    refine ⟨⟨.last before, some inside⟩, isText, IsLiteral.mk opensNone nofun, ?_⟩
    intro tail same
    cases same
    exact cutClosing?_eq_none_iff.mp closing
  · obtain ⟨opensNone, isText⟩ := of_cutOpening? opening
    obtain ⟨body, within, rfl, rfl⟩ := exists_parts_of_cutClosing? closing
    have := (length_of_first first).2
    obtain ⟨⟨rest, unclosed⟩, spelled, after, neverCloses⟩ := exists_reads tail
    refine ⟨⟨.placeholder before body rest, unclosed⟩, ?_,
      ⟨⟨opensNone, nofun⟩, within, after⟩, neverCloses⟩
    rw [isText, spelled]
    exact (Parts.text_append ..).symm
  termination_by text.length

end Reads

/-! ### The expansion follows the reading -/

section Expand

variable {find : String → Except Error (Option String)} {enterable entered : List String}
  {text : List Char} {body parts : Parts}

/-- By itself, a placeholder is expanded to what it makes way for with its expanded inside. -/
theorem expand_enclosed (proper : body.Proper true) :
    expand find enterable entered (enclosed body.text) =
      expand find enterable entered body.text >>= filling find enterable entered := by
  have reads : Reads (enclosed body.text) ⟨.placeholder [] body (.last []), none⟩ :=
    ⟨by simp [Parts.text, ending], ⟨isLiteral_nil false, proper, isLiteral_nil false⟩, nofun⟩
  have nothing : expand find enterable entered ((Parts.last []).text ++ ending none) = pure [] :=
    expand_of_plain rfl
  simp only [expand_of_first reads.first?_placeholder.1, nothing, pure_bind, List.nil_append,
    List.append_nil, bind_pure]

theorem expand_of_reads {unclosed : Option (List Char)} (reads : Reads text ⟨parts, unclosed⟩) :
    expand find enterable entered text = do
      let front ← parts.replaced (expand find enterable entered)
      return front ++ ending unclosed := by
  induction parts generalizing text with
  | last literal =>
    rw [expand_of_plain reads.first?_last.1]
    exact congrArg Except.ok reads.spelled
  | placeholder literal body rest _ restExpands =>
    obtain ⟨first, _, readsRest⟩ := reads.first?_placeholder
    rw [expand_of_first first, restExpands readsRest, Parts.replaced,
      expand_enclosed reads.proper.2.1]
    simp only [bind_assoc, pure_bind, List.append_assoc]

/-- A placeholder without a default stays if its key is missing. -/
theorem filling_of_absent {inside : List Char} (noColon : ':' ∉ inside)
    (absent : find (keyOf inside) = .ok none) :
    filling find enterable entered inside = .ok (enclosed inside) := by
  have whole : cutDefault inside = (inside, none) := cutDefault_joined noColon none
  rw [keyOf, whole] at absent
  refine (filling_joined noColon none).trans ?_
  rw [absent]
  rfl

/-- Parts are kept if no placeholder has a default and the keys of all are missing. -/
theorem replaced_of_misses {within : Bool} (proper : parts.Proper within)
    (noColon : ':' ∉ parts.text)
    (misses : ∀ body ∈ parts.bodies, ∀ inside,
      expand find enterable entered body.text = .ok inside → find (keyOf inside) = .ok none) :
    parts.replaced (expand find enterable entered) = .ok parts.text := by
  induction parts generalizing within with
  | last => rfl
  | placeholder literal body rest bodyKept restKept =>
    obtain ⟨_, bodyProper, restProper⟩ := proper
    simp only [Parts.text, enclosed, List.mem_append, List.mem_cons, not_or] at noColon
    obtain ⟨⟨_, ⟨_, _, bodyNoColon⟩, _⟩, restNoColon⟩ := noColon
    have keptBody : expand find enterable entered body.text = .ok body.text := by
      rw [expand_of_reads (reads_body bodyProper), bodyKept bodyProper bodyNoColon
        fun other member => misses other (List.mem_cons_of_mem _ (List.mem_append_left _ member))]
      exact congrArg Except.ok (List.append_nil _)
    have stays : filling find enterable entered body.text = .ok (enclosed body.text) :=
      filling_of_absent bodyNoColon (misses body List.mem_cons_self body.text keptBody)
    rw [Parts.replaced, expand_enclosed bodyProper, keptBody, restKept restProper restNoColon
      fun other member => misses other (List.mem_cons_of_mem _ (List.mem_append_right _ member))]
    show (filling find enterable entered body.text >>= _) = _
    rw [stays]
    rfl

end Expand

/-! ### Any text -/

/-- There is one way to read a text as literal pieces and closed placeholders, perhaps with a
placeholder at its end that is never closed, and the inside of each closed one is read in the same
way. An expansion copies the literal pieces and the end, and each placeholder makes way for what it
is expanded to by itself; if there is no colon and all keys are missing, then nothing changes. -/
theorem expands_by_reading (text : List Char) :
    (∃! reading, Reads text reading) ∧
    ∀ reading, Reads text reading →
      (∀ body ∈ reading.parts.bodies, Reads body.text ⟨body, none⟩) ∧
      ∀ find enterable entered,
        (expand find enterable entered text = do
          let front ← reading.parts.replaced (expand find enterable entered)
          return front ++ ending reading.unclosed) ∧
        (∀ body ∈ reading.parts.bodies,
          expand find enterable entered (enclosed body.text) =
            expand find enterable entered body.text >>= filling find enterable entered) ∧
        (':' ∉ text →
          (∀ body ∈ reading.parts.bodies, ∀ inside,
            expand find enterable entered body.text = .ok inside →
              find (keyOf inside) = .ok none) →
          expand find enterable entered text = .ok text) := by
  obtain ⟨⟨parts, unclosed⟩, reads⟩ := exists_reads text
  refine ⟨⟨⟨parts, unclosed⟩, reads, fun _ also => reads.unique also⟩, fun reading also => ?_⟩
  obtain rfl := reads.unique also
  have bodiesProper := Parts.proper_bodies reads.proper
  refine ⟨fun body member => reads_body (bodiesProper body member), fun find enterable entered =>
    ⟨expand_of_reads reads, fun body member => expand_enclosed (bodiesProper body member),
      fun noColon misses => ?_⟩⟩
  have isText := reads.spelled
  dsimp only at isText misses
  rw [isText, List.mem_append, not_or] at noColon
  rw [expand_of_reads reads, replaced_of_misses reads.proper noColon.1 misses, isText]
  rfl

/-- A brace that closes nothing, a placeholder in another one, and one that is never closed. -/
def tangled : List Char :=
  "a\x7d".toList ++ "${b${c}}-".toList ++ "$\x7bd${e}".toList

/-- The inside of the outer placeholder. -/
def tangledBody : Parts :=
  .placeholder "b".toList (.last "c".toList) (.last [])

def tangledReading : Reading :=
  ⟨.placeholder "a\x7d".toList tangledBody (.last "-".toList), some "d${e}".toList⟩

/-- A raw value for the key behind the placeholder that is never closed, and for no other one. -/
def behindTangled (key : String) : Except Error (Option String) :=
  .ok ([("e", "v")].lookup key)

/-- What stands behind a placeholder that is never closed is not asked for. -/
theorem expands_by_reading_tangled :
    Reads tangled tangledReading ∧ ':' ∉ tangled ∧
    (∀ reading, Reads tangled reading → reading = tangledReading) ∧
    (∀ body ∈ tangledReading.parts.bodies, ∀ inside,
      expand behindTangled ["e"] [] body.text = .ok inside →
        behindTangled (keyOf inside) = .ok none) ∧
    expand behindTangled ["e"] [] tangled = .ok tangled := by
  have reads : Reads tangled tangledReading := by
    refine ⟨rfl, by decide, fun tail same => ?_⟩
    obtain rfl := Option.some.inj same
    exact cutClosing?_eq_none_iff.mp rfl
  have noColon : ':' ∉ tangled := by decide
  have keptInner : expand behindTangled ["e"] [] "c".toList = .ok "c".toList := expand_of_plain rfl
  have keptOuter : expand behindTangled ["e"] [] "b${c}".toList = .ok "b${c}".toList := by
    rw [expand_of_first (show first? "b${c}".toList = some ("b".toList, "c".toList, []) from rfl),
      keptInner, expand_of_plain rfl]
    rfl
  have misses : ∀ body ∈ tangledReading.parts.bodies, ∀ inside,
      expand behindTangled ["e"] [] body.text = .ok inside →
        behindTangled (keyOf inside) = .ok none := by
    intro body member inside isInside
    rcases List.mem_cons.mp member with rfl | member
    · cases keptOuter.symm.trans isInside
      rfl
    · obtain rfl := List.mem_singleton.mp member
      cases keptInner.symm.trans isInside
      rfl
  obtain ⟨⟨_, _, unique⟩, expands⟩ := expands_by_reading tangled
  exact ⟨reads, noColon, fun other also => (unique other also).trans (unique _ reads).symm,
    misses, ((expands _ reads).2 _ _ _).2.2 noColon misses⟩

end Placeholder

end LayeredConfig
