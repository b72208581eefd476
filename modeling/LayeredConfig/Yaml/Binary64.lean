/-
This file reads decimal numbers as binary fractions of 64 bits, and writes such fractions with the
fewest digits that read back.

A finite fraction is a mantissa of at most 53 bits times a power of two. Reading rounds to the
nearest fraction, and to the one with an even mantissa if two are equally near. Writing looks for
the shortest decimal among those that round to the fraction, and for the nearest of them.
-/

namespace LayeredConfig.Yaml

/-- The fraction `mantissa * 2 ^ exponent`, in lowest exponent or with a mantissa of 53 bits. -/
structure Binary64 where
  isNegative : Bool
  mantissa : Nat
  exponent : Int
  deriving DecidableEq, Repr, Inhabited

namespace Binary64

/-- The least exponent. -/
def leastExponent : Int := -1074

/-- The greatest exponent. -/
def greatestExponent : Int := 971

/-- The least mantissa of 53 bits. -/
def leastFull : Nat := 0x10000000000000

/-- A power of a whole number; one if the exponent is negative. -/
def raised (base : Nat) (exponent : Int) : Nat :=
  base.pow exponent.toNat

/-! ### Reading -/

/-- The quotient rounded to the nearest number, and to the even one of two. -/
def roundedQuotient (numerator denominator : Nat) : Nat :=
  let quotient := numerator / denominator
  let doubled := 2 * (numerator % denominator)
  if doubled > denominator || (doubled == denominator && quotient % 2 == 1) then quotient + 1
  else quotient

/-- The numerator and the denominator of a quotient divided by a power of two. -/
def scaledDown (numerator denominator : Nat) (exponent : Int) : Nat × Nat :=
  (numerator * raised 2 (-exponent), denominator * raised 2 exponent)

/-- The exponent at which a quotient has a whole part of 53 bits, or the least one. -/
def exponentFor (numerator denominator : Nat) : Int :=
  let guess := (Nat.log2 numerator : Int) - (Nat.log2 denominator : Int) - 52
  let (scaled, divisor) := scaledDown numerator denominator guess
  let exponent := if scaled / divisor < leastFull then guess - 1 else guess
  max exponent leastExponent

/-- The fraction nearest to a positive quotient, unless it is too large. -/
def ofQuotient? (isNegative : Bool) (numerator denominator : Nat) : Option Binary64 :=
  let exponent := exponentFor numerator denominator
  let (scaled, divisor) := scaledDown numerator denominator exponent
  let mantissa := roundedQuotient scaled divisor
  let (mantissa, exponent) :=
    if mantissa = 2 * leastFull then (leastFull, exponent + 1) else (mantissa, exponent)
  if exponent > greatestExponent then none else some ⟨isNegative, mantissa, exponent⟩

/-- The fraction nearest to `digits * 10 ^ power`, unless it is too large. -/
def ofDecimal? (isNegative : Bool) (digits : Nat) (power : Int) : Option Binary64 :=
  let size := (toString digits).length + power
  if digits = 0 || size < -400 then some ⟨isNegative, 0, leastExponent⟩
  else if size > 400 then none
  else ofQuotient? isNegative (digits * raised 10 power) (raised 10 (-power))

def digitsValue (digits : List Char) : Nat :=
  digits.foldl (fun total c => total * 10 + (c.toNat - '0'.toNat)) 0

/-- The power of ten after the mark of an exponent. -/
def readPower? : List Char → Option Int
  | '-' :: digits => if digits.isEmpty || !digits.all Char.isDigit then none
      else some (-(digitsValue digits : Int))
  | '+' :: digits => if digits.isEmpty || !digits.all Char.isDigit then none
      else some (digitsValue digits)
  | digits => if digits.isEmpty || !digits.all Char.isDigit then none
      else some (digitsValue digits)

/-- Reads a decimal number without a sign: digits around at most one point, and an exponent. -/
def readUnsigned? (isNegative : Bool) (text : List Char) : Option Binary64 := do
  let whole := text.takeWhile Char.isDigit
  let (fraction, rest) := match text.dropWhile Char.isDigit with
    | '.' :: rest => (rest.takeWhile Char.isDigit, rest.dropWhile Char.isDigit)
    | rest => ([], rest)
  if whole.isEmpty && fraction.isEmpty then none
  let power ← match rest with
    | [] => some 0
    | c :: digits => if c = 'e' || c = 'E' then readPower? digits else none
  ofDecimal? isNegative (digitsValue (whole ++ fraction)) (power - fraction.length)

/-- Reads a decimal number; `none` if the text is none, or if the number is too large. -/
def read? : List Char → Option Binary64
  | '-' :: text => readUnsigned? true text
  | '+' :: text => readUnsigned? false text
  | text => readUnsigned? false text

/-! ### Writing -/

/-- The decimal `digits * 10 ^ power`. -/
structure Decimal where
  digits : Nat
  power : Int
  deriving DecidableEq, Repr

/-- Whether `a * 2 ^ b` is below `c * 10 ^ d`. -/
def isBelow (a : Nat) (b : Int) (c : Nat) (d : Int) : Bool :=
  a * raised 2 b * raised 10 (-d) < c * raised 10 d * raised 2 (-b)

/-- Whether `c * 10 ^ d` is below `a * 2 ^ b`. -/
def isAbove (a : Nat) (b : Int) (c : Nat) (d : Int) : Bool :=
  c * raised 10 d * raised 2 (-b) < a * raised 2 b * raised 10 (-d)

/-- Whether a decimal rounds to a positive fraction. -/
def readsBack (fraction : Binary64) (digits : Nat) (power : Int) : Bool :=
  let isEven := fraction.mantissa % 2 == 0
  let isLow := fraction.mantissa == leastFull && fraction.exponent != leastExponent
  -- the bounds are given in quarters of the distance between neighbours
  let lower := if isLow then 4 * fraction.mantissa - 1 else 4 * fraction.mantissa - 2
  let upper := 4 * fraction.mantissa + 2
  let scale := fraction.exponent - 2
  if isEven then !isAbove lower scale digits power && !isBelow upper scale digits power
  else isBelow lower scale digits power && isAbove upper scale digits power

/-- The greatest multiple of a power of ten that is not above a positive fraction. -/
def wholePart (fraction : Binary64) (power : Int) : Nat :=
  (fraction.mantissa * raised 2 fraction.exponent * raised 10 (-power)) /
    (raised 2 (-fraction.exponent) * raised 10 power)

/-- The nearer of two neighbours on a decimal grid, and the even one if both are equally near. -/
def nearerOf (fraction : Binary64) (lower : Nat) (power : Int) : Nat :=
  -- twice the fraction is compared with the sum of the neighbours
  let scale := fraction.exponent + 1
  if isBelow fraction.mantissa scale (2 * lower + 1) power then lower
  else if isAbove fraction.mantissa scale (2 * lower + 1) power then lower + 1
  else if lower % 2 == 0 then lower else lower + 1

/-- The decimal on a grid that reads back as a fraction and is nearest to it. -/
def onGrid? (fraction : Binary64) (power : Int) : Option Decimal :=
  let lower := wholePart fraction power
  let lowerFits := readsBack fraction lower power
  let upperFits := readsBack fraction (lower + 1) power
  if lowerFits && upperFits then some ⟨nearerOf fraction lower power, power⟩
  else if lowerFits then some ⟨lower, power⟩
  else if upperFits then some ⟨lower + 1, power⟩
  else none

/-- The first grid, from the coarsest on, with a decimal that reads back. -/
def shortestFrom (fraction : Binary64) (power : Int) : Nat → Decimal
  | 0 => ⟨wholePart fraction power, power⟩
  | grids + 1 =>
    match onGrid? fraction power with
    | some decimal => decimal
    | none => shortestFrom fraction (power - 1) grids

/-- The power of ten of the first digit of a positive fraction. -/
def leadingPower (fraction : Binary64) : Int :=
  let shifted := wholePart fraction (-400)
  ((toString shifted).length : Int) - 401

/-- Takes zeros from the end of a decimal. -/
def Decimal.trimmed (decimal : Decimal) : Nat → Decimal
  | 0 => decimal
  | fuel + 1 =>
    if decimal.digits != 0 && decimal.digits % 10 == 0 then
      Decimal.trimmed ⟨decimal.digits / 10, decimal.power + 1⟩ fuel
    else decimal

/-- The shortest decimal that reads back as a positive fraction. -/
def shortest (fraction : Binary64) : Decimal :=
  (shortestFrom fraction (leadingPower fraction + 1) 20).trimmed 20

def zeros (count : Nat) : List Char :=
  List.replicate count '0'

/-- The text of a decimal: with a point if its first digit stands from `10 ^ -5` to `10 ^ 15`, and
with an exponent otherwise. A whole number gets a zero after the point. -/
def Decimal.text (decimal : Decimal) : List Char :=
  let digits := (toString decimal.digits).toList
  let point := (digits.length : Int) + decimal.power
  if 0 ≤ decimal.power && point ≤ 16 then
    digits ++ zeros decimal.power.toNat ++ ['.', '0']
  else if 0 < point && point ≤ 16 then
    digits.take point.toNat ++ '.' :: digits.drop point.toNat
  else if -5 < point && point ≤ 0 then
    '0' :: '.' :: zeros (-point).toNat ++ digits
  else
    let exponent := (toString (point - 1)).toList
    match digits with
    | [digit] => digit :: 'e' :: exponent
    | digit :: others => digit :: '.' :: others ++ 'e' :: exponent
    | [] => []

/-- The text of a fraction. -/
def text (fraction : Binary64) : String :=
  let sign := if fraction.isNegative then ['-'] else []
  let unsigned :=
    if fraction.mantissa = 0 then ['0', '.', '0'] else (shortest fraction).text
  String.ofList (sign ++ unsigned)

end Binary64

end LayeredConfig.Yaml
