import RuleNet.Json.Value
import RuleNet.Number.Integer

/-!
# JSON numbers

A number is scanned by the grammar of JSON (`scanNumber?`) and then given a
value (`Literal.value?`).

The value of a number with a fraction or an exponent, and of an integer beyond
64 bits, is computed with one or two roundings: the leading digits are taken
as a 64-bit integer as far as they fit, that integer is rounded to double
precision, and the result is multiplied with or divided by a rounded power of
ten. For at most 19 digits and small exponents this is often, but not always,
the double-precision number nearest to the literal. A number too large for
double precision has no value.
-/

namespace RuleNet.Json

open Number (Binary64 naturalOf)

/-! ## Scanning -/

/-- The parts of a JSON number as they are written. -/
structure Literal where
  negative : Bool
  /-- The digits before the point. -/
  whole : List Char
  /-- The digits after the point; none if there is no point. -/
  fraction : List Char
  /-- The sign (true for minus) and the digits of the exponent. -/
  exponent : Option (Bool × List Char)
deriving DecidableEq, Repr

/-- A run of at least one digit. -/
def scanDigits? (text : List Char) : Option (List Char × List Char) :=
  let digits := text.takeWhile Char.isDigit
  if digits.isEmpty then none else some (digits, text.dropWhile Char.isDigit)

/-- The digits before the point: a zero stands alone. -/
def scanWhole? (text : List Char) : Option (List Char × List Char) :=
  match scanDigits? text with
  | some ('0' :: _ :: _, _) => none
  | scanned => scanned

/-- A point and the digits after it, or nothing. -/
def scanFraction? : List Char → Option (List Char × List Char)
  | '.' :: rest => scanDigits? rest
  | rest => some ([], rest)

/-- The sign and the digits of an exponent. -/
def scanSigned? : List Char → Option ((Bool × List Char) × List Char)
  | '+' :: rest => (scanDigits? rest).map fun (digits, rest) => ((false, digits), rest)
  | '-' :: rest => (scanDigits? rest).map fun (digits, rest) => ((true, digits), rest)
  | rest => (scanDigits? rest).map fun (digits, rest) => ((false, digits), rest)

/-- An exponent, or nothing. -/
def scanExponent? : List Char → Option (Option (Bool × List Char) × List Char)
  | 'e' :: rest => (scanSigned? rest).map fun (exponent, rest) => (some exponent, rest)
  | 'E' :: rest => (scanSigned? rest).map fun (exponent, rest) => (some exponent, rest)
  | rest => some (none, rest)

/-- A number without its sign. -/
def scanUnsigned? (negative : Bool) (text : List Char) : Option (Literal × List Char) := do
  let (whole, rest) ← scanWhole? text
  let (fraction, rest) ← scanFraction? rest
  let (exponent, rest) ← scanExponent? rest
  return (⟨negative, whole, fraction, exponent⟩, rest)

/-- A JSON number at the start of the text, and what follows it. -/
def scanNumber? : List Char → Option (Literal × List Char)
  | '-' :: rest => scanUnsigned? true rest
  | text => scanUnsigned? false text

/-! ## Values -/

namespace Literal

/-- The largest unsigned 64-bit integer. -/
def wordMax : Nat := 0xFFFFFFFFFFFFFFFF

/-- The longest run of digits that fits into 64 bits behind `significand`: the
number they make with it, and how many digits are left over. -/
def absorbDigits (significand : Nat) : List Char → Nat × Nat
  | [] => (significand, 0)
  | c :: rest =>
      let next := significand * 10 + naturalOf [c]
      if next ≤ wordMax then absorbDigits next rest else (significand, rest.length + 1)

/-- The leading digits as a 64-bit integer, and the power of ten that goes with them. -/
def significand (literal : Literal) : Nat × Int :=
  let (whole, dropped) := absorbDigits 0 literal.whole
  let (all, unread) := absorbDigits whole literal.fraction
  (all, (dropped : Int) - (literal.fraction.length - unread : Nat))

/-- The written exponent. -/
def exponentValue (literal : Literal) : Int :=
  match literal.exponent with
  | none => 0
  | some (negative, digits) => if negative then -(naturalOf digits : Int) else naturalOf digits

/-- The rounded power of ten. -/
def powerOfTen (n : Nat) : Nat :=
  Binary64.nearestMagnitude (Nat.pow 10 n) 1

/-- The magnitude of `significand * 10 ^ exponent`, if it is finite. Powers of
ten up to 308 are at hand; a smaller number is divided by the last of them
first, and below that it vanishes. -/
def scale? (significand : Nat) (exponent : Int) : Option Nat :=
  let rounded := Binary64.nearestMagnitude significand 1
  if significand = 0 then some 0
  else if 308 < exponent then none
  else if 0 ≤ exponent then
    let product := Binary64.multiply rounded (powerOfTen exponent.toNat)
    if product = Binary64.infinityMagnitude then none else some product
  else if -308 ≤ exponent then some (Binary64.divide rounded (powerOfTen (-exponent).toNat))
  else if -616 ≤ exponent then
    some (Binary64.divide (Binary64.divide rounded (powerOfTen 308))
      (powerOfTen (-exponent - 308).toNat))
  else some 0

/-- The literal's value as a floating-point number. -/
def floatValue? (literal : Literal) : Option Numeral :=
  let (significand, exponent) := literal.significand
  (scale? significand (exponent + literal.exponentValue)).map fun magnitude =>
    .float (Binary64.ofMagnitude literal.negative magnitude)

/-- The literal's value. An integer beyond the signed 64-bit range is a
floating-point number when it is negative or does not fit into 64 bits, and so
is minus zero. -/
def value? (literal : Literal) : Option Numeral :=
  let n := naturalOf literal.whole
  if literal.fraction.isEmpty && literal.exponent.isNone then
    if !literal.negative then
      if n ≤ wordMax then some (.integer n) else literal.floatValue?
    else if n ≠ 0 ∧ n ≤ 0x8000000000000000 then some (.integer (-n))
    else literal.floatValue?
  else literal.floatValue?

end Literal

end RuleNet.Json
