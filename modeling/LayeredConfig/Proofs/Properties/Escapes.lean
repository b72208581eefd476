/-
This file says how the escapes in a properties text are read, and when they cannot be.

A text is cut into pieces that stand for one character each: a character that is no backslash, a
backslash and the character behind it, or a backslash, a `u` and the code of a character in four
hexadecimal digits. Only the last of these can be malformed. The reader takes four characters for
the code and leaves the rest to a reader of numbers, which allows a plus sign before the digits; so
a plus sign and three digits are taken for a code, too. But for that, what is read is what the
pieces say, and a text fails exactly if a `\u` that begins a piece has no code behind it. Since no
code holds a backslash, such a `\u` is known by the backslashes right before it: they are even in
number.
-/

import LayeredConfig.Proofs.Properties.LogicalLines
import LayeredConfig.Proofs.Properties.Writing
import Mathlib.Data.Nat.Digits.Defs

namespace LayeredConfig

open Text

namespace Properties

/-! ### Codes of characters -/

/-- The digit is the one of a value in base sixteen. -/
def IsHexDigit (digit : Char) (value : Nat) : Prop :=
  "0123456789abcdef".toList[value]? = some digit ∨ "0123456789ABCDEF".toList[value]? = some digit

instance (digit : Char) (value : Nat) : Decidable (IsHexDigit digit value) :=
  inferInstanceAs (Decidable (_ ∨ _))

/-- The digits are those of the code of a character in base sixteen. -/
def SpellsCode (digits : List Char) (c : Char) : Prop :=
  ∃ values, List.Forall₂ IsHexDigit digits values ∧ Nat.ofDigits 16 values.reverse = c.toNat

/-- Four digits that are those of the code of a character. -/
def IsCode (digits : List Char) (c : Char) : Prop :=
  digits.length = 4 ∧ SpellsCode digits c

/-- What the reader takes for a code: four digits, or three behind a plus sign. -/
def IsReadAsCode (text : List Char) (c : Char) : Prop :=
  IsCode text c ∨ ∃ digits, text = '+' :: digits ∧ digits.length = 3 ∧ SpellsCode digits c

theorem hexValue?_eq_some {digit : Char} {value : Nat} :
    hexValue? digit = some value ↔ IsHexDigit digit value := by
  constructor
  · intro isValue
    have isSmall : digit.toNat < 103 := by
      have bound {last : Char} (below : digit ≤ last) : digit.toNat ≤ last.toNat := below
      simp only [hexValue?, Bool.and_eq_true, decide_eq_true_eq] at isValue
      split_ifs at isValue with isDecimal isLower isUpper
      · exact (bound isDecimal.2).trans_lt (by decide)
      · exact (bound isLower.2).trans_lt (by decide)
      · exact (bound isUpper.2).trans_lt (by decide)
    have each : ∀ code < 103, ∀ value ∈ hexValue? (Char.ofNat code),
        IsHexDigit (Char.ofNat code) value := by decide
    rw [← Char.ofNat_toNat digit] at isValue ⊢
    exact each _ isSmall value isValue
  · have lower : ∀ value < 16,
        ("0123456789abcdef".toList[value]?.map hexValue?) = some (some value) := by decide
    have upper : ∀ value < 16,
        ("0123456789ABCDEF".toList[value]?.map hexValue?) = some (some value) := by decide
    rintro (isDigit | isDigit)
    · have isValue := lower value (List.getElem?_eq_some_iff.mp isDigit).1
      rw [isDigit] at isValue
      exact Option.some.inj isValue
    · have isValue := upper value (List.getElem?_eq_some_iff.mp isDigit).1
      rw [isDigit] at isValue
      exact Option.some.inj isValue

theorem hexNumberFrom_eq_some {start number : Nat} {digits : List Char} :
    hexNumberFrom start digits = some number ↔
      ∃ values, List.Forall₂ IsHexDigit digits values ∧
        start * 16 ^ digits.length + Nat.ofDigits 16 values.reverse = number := by
  induction digits generalizing start with
  | nil => simp [hexNumberFrom]
  | cons digit rest inductionHypothesis =>
    have further (value : Nat) (values : List Nat) (each : List.Forall₂ IsHexDigit rest values) :
        start * 16 ^ (digit :: rest).length + Nat.ofDigits 16 (value :: values).reverse =
          (start * 16 + value) * 16 ^ rest.length + Nat.ofDigits 16 values.reverse := by
      rw [Nat.ofDigits_reverse_cons, ← each.length_eq, List.length_cons, pow_succ]
      ring
    rw [hexNumberFrom]
    constructor
    · intro isNumber
      cases isValue : hexValue? digit with
      | none =>
        rw [isValue] at isNumber
        cases isNumber
      | some value =>
        rw [isValue] at isNumber
        obtain ⟨values, each, rfl⟩ := inductionHypothesis.mp isNumber
        have isDigit := hexValue?_eq_some.mp isValue
        exact ⟨value :: values, .cons isDigit each, further value values each⟩
    · rintro ⟨_, each, rfl⟩
      cases each with
      | @cons _ value _ values isDigit each =>
        rw [hexValue?_eq_some.mpr isDigit]
        exact inductionHypothesis.mpr ⟨values, each, (further value values each).symm⟩

theorem charOfCode?_eq_some {code : Nat} {c : Char} :
    charOfCode? code = some c ↔ code = c.toNat := by
  by_cases valid : code.isValidChar
  · rw [charOfCode?, dif_pos valid, Option.some_inj, ← Char.toNat_inj]
    rfl
  · rw [charOfCode?, dif_neg valid]
    refine iff_of_false nofun ?_
    rintro rfl
    exact valid c.valid

theorem spellsCode_iff {digits : List Char} {c : Char} :
    (hexNumberFrom 0 digits).bind charOfCode? = some c ↔ SpellsCode digits c := by
  simp only [Option.bind_eq_some_iff, hexNumberFrom_eq_some, charOfCode?_eq_some, Nat.zero_mul,
    Nat.zero_add, SpellsCode]
  constructor
  · rintro ⟨_, ⟨values, each, rfl⟩, isCode⟩
    exact ⟨values, each, isCode⟩
  · rintro ⟨values, each, isCode⟩
    exact ⟨_, ⟨values, each, rfl⟩, isCode⟩

theorem hexNumber?_unsigned {first : Char} (unsigned : first ≠ '+') (rest : List Char) :
    hexNumber? (first :: rest) = hexNumberFrom 0 (first :: rest) := by
  unfold hexNumber?
  split
  · next same => cases same
  · next same => exact absurd (List.cons.inj same).1 unsigned
  · next same => exact absurd (List.cons.inj same).1 unsigned
  · rfl

theorem not_spellsCode_signed {rest : List Char} {c : Char} : ¬SpellsCode ('+' :: rest) c := by
  rintro ⟨_, each, _⟩
  cases each with
  | cons isDigit _ =>
    have isValue := hexValue?_eq_some.mpr isDigit
    cases isValue

theorem unicodeEscape?_eq_some {text : List Char} {c : Char} :
    unicodeEscape? text = some c ↔ IsReadAsCode text c := by
  rw [unicodeEscape?, Option.ite_none_right_eq_some, IsReadAsCode, IsCode]
  cases text with
  | nil => simp
  | cons first rest =>
    by_cases signed : first = '+'
    · subst signed
      have isNumber (three : rest.length = 3) :
          hexNumber? ('+' :: rest) = hexNumberFrom 0 rest := by
        cases rest with
        | nil => cases three
        | cons => rfl
      constructor
      · rintro ⟨four, isChar⟩
        have three : rest.length = 3 := Nat.succ.inj four
        rw [isNumber three] at isChar
        exact Or.inr ⟨rest, rfl, three, spellsCode_iff.mp isChar⟩
      · rintro (⟨_, isCode⟩ | ⟨digits, same, three, isCode⟩)
        · exact absurd isCode not_spellsCode_signed
        · obtain rfl := (List.cons.inj same).2
          rw [isNumber three, spellsCode_iff]
          exact ⟨congrArg Nat.succ three, isCode⟩
    · rw [hexNumber?_unsigned signed, spellsCode_iff, or_iff_left]
      rintro ⟨_, same, _⟩
      exact signed (List.cons.inj same).1

theorem length_of_isReadAsCode {text : List Char} {c : Char} (isCode : IsReadAsCode text c) :
    text.length = 4 := by
  rcases isCode with ⟨four, _⟩ | ⟨digits, rfl, three, _⟩
  · exact four
  · rw [List.length_cons, three]

theorem not_mem_of_spellsCode {digits : List Char} {c : Char} (isCode : SpellsCode digits c) :
    '\\' ∉ digits := by
  obtain ⟨values, each, -⟩ := isCode
  intro member
  induction each with
  | nil => cases member
  | cons isDigit _ inductionHypothesis =>
    rcases List.mem_cons.mp member with rfl | inRest
    · have isValue := hexValue?_eq_some.mpr isDigit
      cases isValue
    · exact inductionHypothesis inRest

theorem not_mem_of_isReadAsCode {text : List Char} {c : Char} (isCode : IsReadAsCode text c) :
    '\\' ∉ text := by
  rcases isCode with ⟨_, isCode⟩ | ⟨digits, rfl, _, isCode⟩
  · exact not_mem_of_spellsCode isCode
  · rw [List.mem_cons, not_or]
    exact ⟨by decide, not_mem_of_spellsCode isCode⟩

/-! ### Pieces of a text -/

section Code

variable (code : List Char → Char → Prop)

/-- A piece of a text and the one character it stands for; `code` says what may follow `\u`. -/
inductive StandsFor : List Char → Char → Prop where
  | plain {c : Char} (noEscape : c ≠ '\\') : StandsFor [c] c
  | letter {sign c : Char} (named : letter? c = some sign) : StandsFor ['\\', sign] c
  | itself {c : Char} (unnamed : c ∉ ['t', 'n', 'r', 'f', 'u']) : StandsFor ['\\', c] c
  | unicode {digits : List Char} {c : Char} (isCode : code digits c) :
      StandsFor ('\\' :: 'u' :: digits) c

/-- A text is read as another one: it is cut into pieces, which stand for its characters, and a
backslash at the end that begins no piece stands for nothing. -/
def ReadAs (text result : List Char) : Prop :=
  ∃ pieces tail, List.Forall₂ (StandsFor code) pieces result ∧ (tail = [] ∨ tail = ['\\']) ∧
    text = pieces.flatten ++ tail

/-- Somewhere in the text, a `\u` whose backslash no other one escapes is not followed by four
characters that are a code. -/
def HasMalformed (text : List Char) : Prop :=
  ∃ front rest, text = front ++ '\\' :: 'u' :: rest ∧ continues front = false ∧
    ¬∃ c, code (rest.take 4) c

end Code

/-! ### Reading a piece -/

theorem plainEscape_of_letter {sign c : Char} (named : letter? c = some sign) :
    sign ≠ 'u' ∧ sign ≠ '\\' ∧ plainEscape sign = c := by
  unfold letter? at named
  split_ifs at named with isTab isFeed isReturn isForm
  all_goals
    obtain rfl := Option.some.inj named
    subst_vars
    decide

theorem plainEscape_of_unnamed {c : Char} (unnamed : c ∉ ['t', 'n', 'r', 'f', 'u']) :
    c ≠ 'u' ∧ plainEscape c = c := by
  simp only [List.mem_cons, List.not_mem_nil, or_false, not_or] at unnamed
  obtain ⟨noTab, noFeed, noReturn, noForm, noCode⟩ := unnamed
  rw [plainEscape, if_neg noTab, if_neg noFeed, if_neg noReturn, if_neg noForm]
  exact ⟨noCode, rfl⟩

/-- A piece is read as the character that it stands for, whatever follows. -/
theorem unescape_piece {piece : List Char} {c : Char} (stands : StandsFor IsReadAsCode piece c)
    (rest : List Char) : unescape (piece ++ rest) = (unescape rest).map (c :: ·) := by
  cases stands with
  | plain noEscape => exact unescape_plain noEscape rest
  | letter named =>
    obtain ⟨noCode, _, same⟩ := plainEscape_of_letter named
    rw [← same]
    exact unescape.eq_4 _ _ noCode
  | itself unnamed =>
    obtain ⟨noCode, same⟩ := plainEscape_of_unnamed unnamed
    conv_rhs => rw [← same]
    exact unescape.eq_4 _ _ noCode
  | @unicode digits c isCode =>
    rw [List.cons_append, List.cons_append, unescape, ← length_of_isReadAsCode isCode,
      List.take_left, List.drop_left, unicodeEscape?_eq_some.mpr isCode]

/-! ### Backslashes that others escape -/

section Piece

variable {piece : List Char} {c : Char} (stands : StandsFor IsReadAsCode piece c)

include stands

theorem continues_piece : continues piece = false := by
  cases stands with
  | plain noEscape => simp [continues, noEscape]
  | letter named =>
    obtain ⟨_, noEscape, _⟩ := plainEscape_of_letter named
    simp [continues, noEscape]
  | itself unnamed =>
    by_cases same : c = '\\'
    · subst same
      rfl
    · simp [continues, same]
  | @unicode digits c isCode =>
    exact (@continues_append ['\\', 'u'] rfl digits).trans
      (continues_of_not_mem (not_mem_of_isReadAsCode isCode))

/-- A backslash that begins a malformed code and is not escaped comes behind the piece. -/
theorem exists_behind_piece {rest front after : List Char}
    (split : piece ++ rest = front ++ '\\' :: 'u' :: after) (unescaped : continues front = false)
    (noCode : ¬∃ c, IsReadAsCode (after.take 4) c) : ∃ more, front = piece ++ more := by
  have escaped {sign : Char} (noUnicode : sign ≠ 'u')
      (split : '\\' :: sign :: rest = front ++ '\\' :: 'u' :: after) :
      ∃ more, front = ['\\', sign] ++ more := by
    rcases front with _ | ⟨first, _ | ⟨second, more⟩⟩
    · exact absurd (List.cons.inj (List.cons.inj split).2).1 noUnicode
    · obtain rfl := (List.cons.inj split).1
      cases unescaped
    · obtain ⟨rfl, second⟩ := List.cons.inj split
      obtain ⟨rfl, _⟩ := List.cons.inj second
      exact ⟨more, rfl⟩
  cases stands with
  | plain noEscape =>
    cases front with
    | nil => exact absurd (List.cons.inj split).1 noEscape
    | cons first more =>
      obtain rfl := (List.cons.inj split).1
      exact ⟨more, rfl⟩
  | letter named => exact escaped (plainEscape_of_letter named).1 split
  | itself unnamed => exact escaped (plainEscape_of_unnamed unnamed).1 split
  | @unicode digits c isCode =>
    rcases front with _ | ⟨first, _ | ⟨second, others⟩⟩
    · have isAfter : digits ++ rest = after := (List.cons.inj (List.cons.inj split).2).2
      refine absurd ⟨c, ?_⟩ noCode
      rwa [← isAfter, ← length_of_isReadAsCode isCode, List.take_left]
    · obtain rfl := (List.cons.inj split).1
      cases unescaped
    · obtain ⟨rfl, behindFirst⟩ := List.cons.inj split
      obtain ⟨rfl, behindSecond⟩ := List.cons.inj behindFirst
      rcases List.append_eq_append_iff.mp behindSecond with
        ⟨more, rfl, _⟩ | ⟨inside, isSplit, isAfter⟩
      · exact ⟨more, rfl⟩
      · -- A code holds no backslash, so nothing of it is left over for the one behind `front`.
        cases inside with
        | nil => exact ⟨[], by rw [isSplit, List.append_nil, List.append_nil]⟩
        | cons first inside =>
          obtain rfl := (List.cons.inj isAfter).1
          refine absurd ?_ (not_mem_of_isReadAsCode isCode)
          rw [isSplit]
          exact List.mem_append_right _ List.mem_cons_self

/-- No malformed code begins in a piece. -/
theorem hasMalformed_piece (rest : List Char) :
    HasMalformed IsReadAsCode (piece ++ rest) ↔ HasMalformed IsReadAsCode rest := by
  have even := continues_piece stands
  constructor
  · rintro ⟨front, after, split, unescaped, noCode⟩
    obtain ⟨more, rfl⟩ := exists_behind_piece stands split unescaped noCode
    rw [continues_append even] at unescaped
    rw [List.append_assoc, List.append_cancel_left_eq] at split
    exact ⟨more, after, split, unescaped, noCode⟩
  · rintro ⟨front, after, rfl, unescaped, noCode⟩
    exact ⟨piece ++ front, after, (List.append_assoc _ _ _).symm,
      by rw [continues_append even, unescaped], noCode⟩

end Piece

/-! ### The whole text -/

theorem standsFor_escaped (sign : Char) (noCode : sign ≠ 'u') :
    ∃ c, StandsFor IsReadAsCode ['\\', sign] c := by
  have letters : ['t', 'n', 'r', 'f'].map (letter? ∘ plainEscape) =
      ['t', 'n', 'r', 'f'].map some := by decide
  by_cases named : sign ∈ ['t', 'n', 'r', 'f']
  · exact ⟨_, .letter (List.map_inj_left.mp letters sign named)⟩
  · refine ⟨sign, .itself fun isThere => ?_⟩
    rcases List.mem_append.mp (show sign ∈ ['t', 'n', 'r', 'f'] ++ ['u'] from isThere) with
      isNamed | isCode
    · exact named isNamed
    · exact noCode (List.mem_singleton.mp isCode)

/-- How a text begins: there is nothing of it, or it begins with a malformed code or a piece. -/
inductive Begins : List Char → Prop where
  | nothing : Begins []
  | backslash : Begins ['\\']
  | malformed {rest : List Char} (noCode : ¬∃ c, IsReadAsCode (rest.take 4) c) :
      Begins ('\\' :: 'u' :: rest)
  | piece {piece : List Char} {c : Char} (stands : StandsFor IsReadAsCode piece c)
      (rest : List Char) : Begins (piece ++ rest)

theorem begins (text : List Char) : Begins text := by
  match text with
  | [] => exact .nothing
  | c :: rest =>
    by_cases noEscape : c ≠ '\\'
    · exact .piece (.plain noEscape) rest
    rw [not_not] at noEscape
    subst noEscape
    match rest with
    | [] => exact .backslash
    | sign :: rest =>
      by_cases isUnicode : sign = 'u'
      · subst isUnicode
        by_cases noCode : ∃ c, IsReadAsCode (rest.take 4) c
        · obtain ⟨c, isCode⟩ := noCode
          have isPiece := Begins.piece (.unicode isCode) (rest.drop 4)
          rwa [List.cons_append, List.cons_append, List.take_append_drop] at isPiece
        · exact .malformed noCode
      · obtain ⟨c, stands⟩ := standsFor_escaped sign isUnicode
        exact .piece stands rest

theorem StandsFor.length_lt {code : List Char → Char → Prop} {piece : List Char} {c : Char}
    (stands : StandsFor code piece c) (rest : List Char) :
    rest.length < (piece ++ rest).length := by
  cases stands <;> simp only [List.cons_append, List.length_append, List.length_cons] <;> omega

/-- A text is settled if each piece may be put before what is settled. -/
theorem pieceInduction {motive : List Char → Prop} (nothing : motive []) (backslash : motive ['\\'])
    (malformed : ∀ {rest : List Char}, (¬∃ c, IsReadAsCode (rest.take 4) c) →
      motive ('\\' :: 'u' :: rest))
    (behind : ∀ {piece : List Char} {c : Char}, StandsFor IsReadAsCode piece c →
      ∀ rest, motive rest → motive (piece ++ rest))
    (text : List Char) : motive text :=
  match text, begins text with
  | _, .nothing => nothing
  | _, .backslash => backslash
  | _, .malformed noCode => malformed noCode
  | _, .piece stands rest =>
    behind stands rest (pieceInduction nothing backslash malformed behind rest)
  termination_by text.length
  decreasing_by exact stands.length_lt rest

theorem unescape_malformed {rest : List Char} (noCode : ¬∃ c, IsReadAsCode (rest.take 4) c) :
    unescape ('\\' :: 'u' :: rest) = .error ('\\' :: 'u' :: rest.take 4) := by
  have none : unicodeEscape? (rest.take 4) = none := by
    refine Option.eq_none_iff_forall_ne_some.mpr fun c isCode => noCode ⟨c, ?_⟩
    exact unicodeEscape?_eq_some.mp isCode
  rw [unescape, none]

theorem not_hasMalformed_short {text : List Char} (short : text.length < 2) :
    ¬HasMalformed IsReadAsCode text := by
  rintro ⟨front, rest, rfl, _⟩
  rw [List.length_append, List.length_cons, List.length_cons] at short
  omega

theorem unescape_nil : unescape [] = .ok [] := by
  rw [unescape]

theorem unescape_backslash : unescape ['\\'] = .ok [] := by
  rw [unescape]

/-- To read the escapes of a text fails exactly if there is a malformed code in it. -/
theorem unescape_fails_iff {text : List Char} :
    (∃ cause, unescape text = .error cause) ↔ HasMalformed IsReadAsCode text := by
  induction text using pieceInduction with
  | nothing =>
    rw [unescape_nil]
    exact iff_of_false (fun ⟨_, same⟩ => nomatch same) (not_hasMalformed_short (by decide))
  | backslash =>
    rw [unescape_backslash]
    exact iff_of_false (fun ⟨_, same⟩ => nomatch same) (not_hasMalformed_short (by decide))
  | malformed noCode =>
    exact iff_of_true ⟨_, unescape_malformed noCode⟩ ⟨[], _, rfl, rfl, noCode⟩
  | behind stands rest inductionHypothesis =>
    simp only [hasMalformed_piece stands, ← inductionHypothesis, unescape_piece stands,
      map_eq_error]

/-- What is read of a text stands there piece by piece. -/
theorem unescape_eq_ok {text result : List Char} :
    unescape text = .ok result ↔ ReadAs IsReadAsCode text result := by
  constructor
  · intro isRead
    induction text using pieceInduction generalizing result with
    | nothing =>
      obtain rfl := Except.ok.inj (unescape_nil.symm.trans isRead)
      exact ⟨[], [], .nil, Or.inl rfl, rfl⟩
    | backslash =>
      obtain rfl := Except.ok.inj (unescape_backslash.symm.trans isRead)
      exact ⟨[], _, .nil, Or.inr rfl, rfl⟩
    | malformed noCode =>
      rw [unescape_malformed noCode] at isRead
      cases isRead
    | @behind piece c stands rest inductionHypothesis =>
      rw [unescape_piece stands, map_eq_ok] at isRead
      obtain ⟨result, isRest, rfl⟩ := isRead
      obtain ⟨pieces, tail, each, isTail, rfl⟩ := inductionHypothesis isRest
      exact ⟨piece :: pieces, tail, .cons stands each, isTail, (List.append_assoc _ _ _).symm⟩
  · rintro ⟨pieces, tail, each, isTail, rfl⟩
    induction each with
    | nil =>
      rcases isTail with rfl | rfl
      · exact unescape_nil
      · exact unescape_backslash
    | cons stands _ inductionHypothesis =>
      rw [List.flatten_cons, List.append_assoc, unescape_piece stands, inductionHypothesis]
      rfl

/-! ### The entries of a text -/

theorem exists_error_iff {Cause Value : Type} {outcome : Except Cause Value} :
    (∃ cause, outcome = .error cause) ↔ ¬∃ value, outcome = .ok value := by
  cases outcome <;> simp

theorem exists_readPart_iff {number : Nat} {part : List Char} :
    (∃ text, readPart number part = .ok text) ↔ ¬HasMalformed IsReadAsCode part := by
  rw [← unescape_fails_iff, readPart]
  cases unescape part <;> simp

theorem exists_readEntry_iff {number : Nat} {entry : List Char} :
    (∃ pair, readEntry number entry = .ok pair) ↔
      ¬(HasMalformed IsReadAsCode (cutEntry entry).1 ∨
        HasMalformed IsReadAsCode (cutEntry entry).2) := by
  rw [not_or, ← @exists_readPart_iff number, ← @exists_readPart_iff number]
  simp only [readEntry, bind_eq_ok]
  constructor
  · rintro ⟨_, key, isKey, value, isValue, _⟩
    exact ⟨⟨key, isKey⟩, value, isValue⟩
  · rintro ⟨⟨key, isKey⟩, value, isValue⟩
    exact ⟨(key, value), key, isKey, value, isValue, rfl⟩

/-- A text is read if each of its entries is. -/
theorem exists_documentsOf_iff {found : List Item} :
    (∃ documents, documentsOf found = .ok documents) ↔
      ∀ number entry, .entry number entry ∈ found → ∃ pair, readEntry number entry = .ok pair := by
  induction found with
  | nil => exact iff_of_true ⟨_, rfl⟩ nofun
  | cons item rest inductionHypothesis =>
    cases item with
    | separator =>
      simp only [documentsOf, bind_eq_ok, List.mem_cons, reduceCtorEq, false_or,
        ← inductionHypothesis]
      constructor
      · rintro ⟨_, documents, isRead, _⟩
        exact ⟨documents, isRead⟩
      · rintro ⟨documents, isRead⟩
        exact ⟨_, documents, isRead, rfl⟩
    | entry number text =>
      simp only [documentsOf, bind_eq_ok, List.mem_cons, Item.entry.injEq]
      constructor
      · rintro ⟨_, pair, isPair, documents, isRead, _⟩ other entry (⟨rfl, rfl⟩ | inRest)
        · exact ⟨pair, isPair⟩
        · exact inductionHypothesis.mp ⟨documents, isRead⟩ other entry inRest
      · intro each
        obtain ⟨pair, isPair⟩ := each number text (Or.inl ⟨rfl, rfl⟩)
        obtain ⟨documents, isRead⟩ := inductionHypothesis.mpr fun other entry inRest =>
          each other entry (Or.inr inRest)
        cases documents with
        | nil => exact ⟨_, pair, isPair, [], isRead, rfl⟩
        | cons => exact ⟨_, pair, isPair, _, isRead, rfl⟩

/-- The escapes of a text are read piece by piece. It fails exactly if there is a `\u`, its
backslash not escaped by another one, that is not followed by four hexadecimal digits that are the
code of a character, nor by a plus sign and three of them; and a properties text fails exactly if
the key or the value of one of its entries does. -/
theorem reads_escapes_up_to_sign (text : String) :
    ((∃ cause, unescape text.toList = .error cause) ↔ HasMalformed IsReadAsCode text.toList) ∧
    (∀ result, unescape text.toList = .ok result ↔ ReadAs IsReadAsCode text.toList result) ∧
    ((∃ malformed, read text = .error malformed) ↔
      ∃ number entry, .entry number entry ∈ items text.toList ∧
        (HasMalformed IsReadAsCode (cutEntry entry).1 ∨
          HasMalformed IsReadAsCode (cutEntry entry).2)) := by
  refine ⟨unescape_fails_iff, fun result => unescape_eq_ok, ?_⟩
  rw [exists_error_iff, read, exists_documentsOf_iff]
  simp only [exists_readEntry_iff]
  push Not
  rfl

/-- A plus sign and three digits are read as a character, although they are no code. -/
theorem sign_read_as_digit :
    unescape ['\\', 'u', '+', '0', '4', '1'] = .ok ['A'] ∧
      HasMalformed IsCode ['\\', 'u', '+', '0', '4', '1'] ∧
      ¬∀ text, (∃ cause, unescape text = .error cause) ↔ HasMalformed IsCode text := by
  have isRead : unescape ['\\', 'u', '+', '0', '4', '1'] = .ok ['A'] := by
    refine unescape_eq_ok.mpr ⟨[['\\', 'u', '+', '0', '4', '1']], [], ?_, Or.inl rfl, rfl⟩
    exact .cons (.unicode (unicodeEscape?_eq_some.mp (by decide))) .nil
  have isMalformed : HasMalformed IsCode ['\\', 'u', '+', '0', '4', '1'] :=
    ⟨[], ['+', '0', '4', '1'], rfl, rfl, fun ⟨_, _, isCode⟩ => not_spellsCode_signed isCode⟩
  refine ⟨isRead, isMalformed, fun each => ?_⟩
  obtain ⟨cause, failed⟩ := (each _).mpr isMalformed
  rw [isRead] at failed
  cases failed

end Properties

end LayeredConfig
