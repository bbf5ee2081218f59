import RuleNet.Number.Binary64
import RuleNet.Number.Integer

/-!
# Reading double-precision numbers

A floating-point numeral is an optional sign followed by `inf`, `infinity` or
`nan` in any mixture of cases, or by decimal digits with at most one point and
at least one digit, and then an optional exponent. The value is the nearest
double-precision number; what is too large becomes infinity and what is too
small becomes zero.
-/

namespace RuleNet.Number

/-- A decimal number without sign: the digits taken as a whole number, times a
power of ten. -/
structure Scientific where
  /-- The digits before and after the point. -/
  digits : List Char
  /-- The power of ten that the digits are multiplied with. -/
  exponent : Int
deriving DecidableEq, Repr

namespace Scientific

/-- The digits after a point, if the text starts with one, and what follows them. -/
def takeFraction : List Char → List Char × List Char
  | '.' :: rest => (rest.takeWhile Char.isDigit, rest.dropWhile Char.isDigit)
  | rest => ([], rest)

/-- An exponent: absent at the end of the text, else `e` or `E` and a signed numeral. -/
def readExponent? : List Char → Option Int
  | [] => some 0
  | c :: rest => if c == 'e' || c == 'E' then readSigned? rest else none

/-- Digits with at most one point among them, then an optional exponent. -/
def read? (text : List Char) : Option Scientific :=
  let whole := text.takeWhile Char.isDigit
  let (fraction, rest) := takeFraction (text.dropWhile Char.isDigit)
  if whole.isEmpty && fraction.isEmpty then none
  else (readExponent? rest).map fun exponent => ⟨whole ++ fraction, exponent - fraction.length⟩

/-- The nearest magnitude. -/
def toMagnitude (s : Scientific) : Nat :=
  Binary64.nearestDecimal (naturalOf s.digits) s.exponent

end Scientific

/-- The magnitude of an unsigned numeral. -/
def readMagnitude? (text : List Char) : Option Nat :=
  let word := text.map Char.toLower
  if word = "inf".toList ∨ word = "infinity".toList then some Binary64.infinityMagnitude
  else if word = "nan".toList then some (Binary64.nan false).magnitude
  else (Scientific.read? text).map Scientific.toMagnitude

/-- The value of a floating-point numeral. -/
def readBinary64? : List Char → Option Binary64
  | '+' :: text => (readMagnitude? text).map (Binary64.ofMagnitude false)
  | '-' :: text => (readMagnitude? text).map (Binary64.ofMagnitude true)
  | text => (readMagnitude? text).map (Binary64.ofMagnitude false)

end RuleNet.Number
