namespace Optima

/-!
# Decimal numbers

A double precision number is taken apart, and digits are chosen for its parts.  They are
written with or without an exponent, and written numbers are read.
-/

/-!
## The parts of a double precision number

A finite double precision number is a whole number times a power of two, with a
sign.  This module takes the number apart and puts fractions together.  Digits
are chosen elsewhere, in exact arithmetic on the parts.
-/

/-- A finite number `± significand · 2 ^ exponent`. -/
structure Binary where
  negative : Bool
  significand : Nat
  exponent : Int
  deriving Repr, DecidableEq

namespace Binary

/-- Number of significand values of one binade. -/
def binade : Nat := Nat.pow 2 52

/-- The parts of a finite number; infinities and what is not a number have none. -/
def ofFloat? (value : Float) : Option Binary :=
  let bits := value.toBits.toNat
  let negative := Nat.pow 2 63 ≤ bits
  let exponentField := bits / binade % 2048
  let fraction := bits % binade
  if exponentField = 2047 then none
  else if exponentField = 0 then some ⟨negative, fraction, -1074⟩
  else some ⟨negative, binade + fraction, exponentField - 1075⟩

/-- The fraction that the parts stand for. -/
def toRat (parts : Binary) : Rat :=
  let scaled : Rat :=
    if 0 ≤ parts.exponent then ((parts.significand * Nat.pow 2 parts.exponent.toNat : Nat) : Rat)
    else mkRat parts.significand (Nat.pow 2 (-parts.exponent).toNat)
  if parts.negative then -scaled else scaled

/--
The number nearest to a fraction: the quotient is cut to 64 binary places with a
mark for what was cut off, and rounded once.
-/
def floatOfRat (fraction : Rat) : Float :=
  let numerator := fraction.num.natAbs
  if numerator = 0 then 0
  else
    let shift : Int := 64 + fraction.den.log2 - numerator.log2
    let scaledNumerator := if 0 ≤ shift then numerator * Nat.pow 2 shift.toNat else numerator
    let scaledDenominator := if 0 ≤ shift then fraction.den else fraction.den * Nat.pow 2 (-shift).toNat
    let quotient := scaledNumerator / scaledDenominator
    let marked := if scaledNumerator % scaledDenominator = 0 then 2 * quotient else 2 * quotient + 1
    let rounded := (Float.ofNat marked).scaleB (-(shift + 1))
    if fraction.num < 0 then -rounded else rounded

end Binary

/-!
## Choosing decimal digits

Two choices of digits for a double precision number, both in exact arithmetic on
its parts: the fewest digits that read back as the number, and a fixed count of
significant digits.

The decimals that read back as `significand · 2 ^ exponent` fill an interval
around it.  Its ends are counted in quarters of the last binary place, because
below a power of two the neighbouring number is only half a place away.
-/

/-- A finite decimal number `± coefficient · 10 ^ exponent`. -/
structure Decimal where
  negative : Bool
  coefficient : Nat
  exponent : Int
  deriving Repr, DecidableEq

namespace Decimal

/--
A pair of natural numbers in the proportion of `2 ^ binaryExponent` to
`10 ^ decimalExponent`.
-/
def proportion (binaryExponent decimalExponent : Int) : Nat × Nat :=
  (Nat.pow 2 binaryExponent.toNat * Nat.pow 10 (-decimalExponent).toNat,
   Nat.pow 10 decimalExponent.toNat * Nat.pow 2 (-binaryExponent).toNat)

/-- Whether `10 ^ decimalExponent` is at most `significand · 2 ^ binaryExponent`. -/
def reaches (significand : Nat) (binaryExponent decimalExponent : Int) : Bool :=
  let (unit, grid) := proportion binaryExponent decimalExponent
  grid ≤ significand * unit

/-- The exponent of the leading decimal digit of `significand · 2 ^ binaryExponent`. -/
def leadingExponent (significand : Nat) (binaryExponent : Int) : Int :=
  let estimate := ((significand.log2 + binaryExponent) * 30103).fdiv 100000
  if reaches significand binaryExponent (estimate + 1) then estimate + 1
  else if reaches significand binaryExponent estimate then estimate
  else estimate - 1

/-- The nearest whole number to a quotient, the even one of two. -/
def roundedQuotient (numerator denominator : Nat) : Nat :=
  let quotient := numerator / denominator
  let rest := 2 * (numerator % denominator)
  if rest < denominator then quotient
  else if denominator < rest then quotient + 1
  else if quotient % 2 = 0 then quotient
  else quotient + 1

/-- The decimal with its last digit at `10 ^ decimalExponent` that is nearest to a number. -/
def nearestOn (parts : Binary) (decimalExponent : Int) : Decimal :=
  let (unit, grid) := proportion parts.exponent decimalExponent
  ⟨parts.negative, roundedQuotient (parts.significand * unit) grid, decimalExponent⟩

/-- A number rounded to a count of significant digits. -/
def significant (places : Nat) (parts : Binary) : Decimal :=
  if parts.significand = 0 then ⟨parts.negative, 0, 0⟩
  else
    let leading := leadingExponent parts.significand parts.exponent
    nearestOn parts (leading - (places - 1 : Nat))

/-- Quarters of the last binary place down to the end of the interval of decimals that read back. -/
def quartersBelow (parts : Binary) : Nat :=
  if parts.significand = Binary.binade && decide (-1074 < parts.exponent) then 1 else 2

/-- The decimal of a given grid that reads back as the number and is nearest to it. -/
def readingBack? (parts : Binary) (decimalExponent : Int) : Option Decimal :=
  let (unit, grid) := proportion (parts.exponent - 2) decimalExponent
  let value := 4 * parts.significand * unit
  let least := (4 * parts.significand - quartersBelow parts) * unit
  let greatest := (4 * parts.significand + 2) * unit
  let closed := parts.significand % 2 = 0
  let readsBack := fun coefficient : Nat =>
    let point := coefficient * grid
    if closed then decide (least ≤ point) && decide (point ≤ greatest)
    else decide (least < point) && decide (point < greatest)
  let lower := value / grid
  let upper := lower + 1
  let lowerIsNearer :=
    let down := value - lower * grid
    let up := upper * grid - value
    down < up || (down == up && lower % 2 == 0)
  match readsBack lower, readsBack upper with
  | true, true => some ⟨parts.negative, if lowerIsNearer then lower else upper, decimalExponent⟩
  | true, false => some ⟨parts.negative, lower, decimalExponent⟩
  | false, true => some ⟨parts.negative, upper, decimalExponent⟩
  | false, false => none

/-- The decimal with the fewest digits that reads back as the number. -/
def shortest (parts : Binary) : Decimal :=
  if parts.significand = 0 then ⟨parts.negative, 0, 0⟩
  else
    let leading := leadingExponent parts.significand parts.exponent
    let candidates := (List.range 17).filterMap fun count : Nat =>
      readingBack? parts (leading - count)
    candidates.headD (significant 17 parts)

/-- The decimal number nearest to which a double precision number is. -/
def toFloat (decimal : Decimal) : Float :=
  let unsigned :=
    if 0 ≤ decimal.exponent then
      Float.ofScientific decimal.coefficient false decimal.exponent.toNat
    else Float.ofScientific decimal.coefficient true (-decimal.exponent).toNat
  if decimal.negative then -unsigned else unsigned

/-- A number rounded to a count of significant digits. -/
def roundSignificant (places : Nat) (value : Float) : Float :=
  match Binary.ofFloat? value with
  | none => value
  | some parts => (significant places parts).toFloat

/-- A number rounded to a count of digits behind the point. -/
def roundFraction (places : Nat) (value : Float) : Float :=
  match Binary.ofFloat? value with
  | none => value
  | some parts => (nearestOn parts (-(places : Int))).toFloat

end Decimal

/-!
## Reading a number

The written numbers are an optional sign and either a name (`inf`, `infinity`,
`nan`, in any case) or digits with an optional point and an optional exponent.
At least one digit stands before or behind the point.
-/

namespace Decimal

/-- The value of a row of decimal digits. -/
def digitsValue (digits : List Char) : Nat :=
  digits.foldl (fun value digit => 10 * value + (digit.toNat - '0'.toNat)) 0

/-- Split off the digits at the start. -/
def spanDigits (text : List Char) : List Char × List Char :=
  (text.takeWhile Char.isDigit, text.dropWhile Char.isDigit)

/-- Split off a sign; the first part says whether it is a minus. -/
def spanSign : List Char → Bool × List Char
  | '-' :: rest => (true, rest)
  | '+' :: rest => (false, rest)
  | rest => (false, rest)

/-- Read the exponent part at the end of a number. -/
def readExponent? : List Char → Option Int
  | [] => some 0
  | marker :: rest =>
    if marker == 'e' || marker == 'E' then
      let (negative, unsigned) := spanSign rest
      let (digits, tail) := spanDigits unsigned
      if digits.isEmpty || !tail.isEmpty then none
      else some (if negative then -(digitsValue digits : Int) else digitsValue digits)
    else none

/-- Read a number made of digits. -/
def readDigits? (negative : Bool) (text : List Char) : Option Decimal :=
  let (whole, afterWhole) := spanDigits text
  let (fraction, afterFraction) :=
    match afterWhole with
    | '.' :: rest => spanDigits rest
    | rest => ([], rest)
  if whole.isEmpty && fraction.isEmpty then none
  else
    (readExponent? afterFraction).map fun exponent =>
      ⟨negative, digitsValue (whole ++ fraction), exponent - fraction.length⟩

/--
The double precision number nearest to a decimal.  Decimals beyond every finite
number, or too small for any, are decided by their leading digit.
-/
def toFloatBounded (decimal : Decimal) : Float :=
  let digits := (Nat.toDigits 10 decimal.coefficient).length
  let leading := decimal.exponent + digits
  let unsigned : Float :=
    if decimal.coefficient = 0 || leading < -400 then 0
    else if 400 < leading then 1 / 0
    else Decimal.toFloat { decimal with negative := false }
  if decimal.negative then -unsigned else unsigned

/-- Read a number. -/
def readFloat? (text : List Char) : Option Float :=
  let (negative, unsigned) := spanSign text
  let name := String.ofList (unsigned.map Char.toLower)
  if name == "inf" || name == "infinity" then some (if negative then -(1 / 0) else 1 / 0)
  else if name == "nan" then some (0 / 0)
  else (readDigits? negative unsigned).map toFloatBounded

end Decimal

/-!
## The written form of a number

A decimal is written positionally while the exponent of its leading digit is in
a range, and with an exponent of at least two digits outside of it.  What is not
finite is written by name.
-/

namespace Decimal

/-- How a decimal is laid out. -/
structure Style where
  /-- Smallest exponent of the leading digit that is written positionally. -/
  positionalFrom : Int
  /-- Exponent of the leading digit from which on an exponent is written. -/
  positionalBelow : Int
  /-- Whether a whole number is written with a digit behind the point. -/
  pointZero : Bool
  deriving Repr, DecidableEq

/-- Numbers in messages: positional from one ten-thousandth to below ten to the sixteenth. -/
def messageStyle : Style := ⟨-4, 16, true⟩

/-- Numbers cut to a count of digits: positional while that many digits reach the point. -/
def briefStyle (places : Nat) : Style := ⟨-4, places, false⟩

/-- The significant digits of a coefficient without zeros at the end, and how many were dropped. -/
def significantDigits (coefficient : Nat) : List Char × Nat :=
  let digits := Nat.toDigits 10 coefficient
  let kept := (digits.reverse.dropWhile (· == '0')).reverse
  if kept.isEmpty then (['0'], 0) else (kept, digits.length - kept.length)

/-- The exponent part of a number. -/
def exponentText (exponent : Int) : String :=
  let digits := toString exponent.natAbs
  let padded := if digits.length < 2 then "0" ++ digits else digits
  (if exponent < 0 then "e-" else "e+") ++ padded

/-- The digits of a positive decimal laid out around the point. -/
def layOut (style : Style) (coefficient : Nat) (exponent : Int) : String :=
  let (digits, dropped) := significantDigits coefficient
  let leading := exponent + dropped + digits.length - 1
  let leading := if coefficient = 0 then 0 else leading
  if style.positionalFrom ≤ leading ∧ leading < style.positionalBelow then
    if leading < 0 then
      "0." ++ String.ofList (List.replicate (-leading - 1).toNat '0' ++ digits)
    else
      let wholeLength := leading.toNat + 1
      let whole := digits.take wholeLength
      let padding := List.replicate (wholeLength - whole.length) '0'
      let fraction := digits.drop wholeLength
      let tail :=
        if fraction.isEmpty then (if style.pointZero then ['.', '0'] else [])
        else '.' :: fraction
      String.ofList (whole ++ padding ++ tail)
  else
    let fraction := digits.drop 1
    let tail := if fraction.isEmpty then [] else '.' :: fraction
    String.ofList (digits.take 1 ++ tail) ++ exponentText leading

/-- The written form of a decimal. -/
def render (style : Style) (decimal : Decimal) : String :=
  (if decimal.negative then "-" else "") ++ layOut style decimal.coefficient decimal.exponent

/-- The written form of a number, given how its finite digits are chosen and laid out. -/
def floatText (style : Style) (choose : Binary → Decimal) (value : Float) : String :=
  match Binary.ofFloat? value with
  | some parts => (choose parts).render style
  | none => if value.isNaN then "nan" else if value < 0 then "-inf" else "inf"

/-- A number with the fewest digits that read back. -/
def shortestText (value : Float) : String :=
  floatText messageStyle shortest value

/-- A number with a count of significant digits. -/
def briefText (places : Nat) (value : Float) : String :=
  floatText (briefStyle places) (significant places) value

end Decimal

end Optima
