import RuleNet.Number.Binary64
import RuleNet.Number.Integer

/-!
# The shortest decimal that reads back

Every finite double-precision number is the nearest one to all reals of an
interval around it; the ends belong to it when the number's last bit is even.
The shortest text takes the coarsest grid of powers of ten that has a point in
this interval, and on that grid the point nearest to the number. If two points
are equally near, the `Tie` rule decides.
-/

namespace RuleNet.Number

/-- Which of two equally near decimals is taken. -/
inductive Tie where
  /-- The one whose last digit is even. -/
  | toEven
  /-- The larger one. -/
  | up
deriving DecidableEq, Repr

/-- The number `digits * 10 ^ exponent`. -/
structure ShortDecimal where
  /-- The significant digits as a whole number. -/
  digits : Nat
  /-- The power of ten. -/
  exponent : Int
deriving DecidableEq, Repr

namespace Shortest

/-- The interval that rounds to a magnitude, in quarters of its last place:
lower end, the number itself, upper end. Below a power of two the neighbours
are twice as close. -/
def interval (m e : Nat) : Nat × Nat × Nat :=
  (4 * m - (if m = 1 <<< 52 ∧ e ≠ 0 then 1 else 2), 4 * m, 4 * m + 2)

/-- The interval on the grid of multiples of `10 ^ p`: the three numerators and
their common denominator. -/
def onGrid (m e : Nat) (p : Int) : (Nat × Nat × Nat) × Nat :=
  let (low, mid, high) := interval m e
  let scale := Nat.pow 10 (-p).toNat <<< e
  ((low * scale, mid * scale, high * scale), Nat.pow 10 p.toNat <<< 1076)

/-- The grid's point in the interval that is nearest to the number, if it has one. -/
def pick? (tie : Tie) (m e : Nat) (p : Int) : Option Nat :=
  let ((low, mid, high), unit) := onGrid m e p
  let inside := fun c =>
    if m % 2 = 0 then low ≤ c * unit ∧ c * unit ≤ high else low < c * unit ∧ c * unit < high
  let below := mid / unit
  let above := below + 1
  if inside below then
    if inside above then
      let twice := 2 * (mid - below * unit)
      if twice < unit then some below
      else if unit < twice then some above
      else match tie with
        | .toEven => some (below + below % 2)
        | .up => some above
    else some below
  else if inside above then some above
  else none

/-- The first grid, of `fuel` grids downwards from `10 ^ p`, with a point in the interval. -/
def search (tie : Tie) (m e : Nat) : Nat → Int → ShortDecimal
  | 0, p => ⟨(onGrid m e p).1.2.1 / (onGrid m e p).2, p⟩
  | fuel + 1, p =>
      match pick? tie m e p with
      | some digits => ⟨digits, p⟩
      | none => search tie m e fuel (p - 1)

/-- A power of ten above the number and at most three places too high. -/
def topExponent (m e : Nat) : Int :=
  ((m.log2 + e : Int) - 1074) * 30103 / 100000 + 2

end Shortest

/-- The shortest decimal that reads back as a finite magnitude other than zero.
Seventeen digits always do, so twenty-four grids are enough. -/
def shortest (tie : Tie) (magnitude : Nat) : ShortDecimal :=
  let (m, e) := Binary64.decompose magnitude
  Shortest.search tie m e 24 (Shortest.topExponent m e)

/-! ## Layouts -/

/-- How double-precision numbers are written. -/
structure FloatFormat where
  /-- The choice between two equally near decimals. -/
  tie : Tie
  /-- Whether a number of this order of magnitude (the power of ten of its
  first digit) is written without an exponent. -/
  isPositional : Int → Bool
  /-- What follows a whole number. -/
  wholeMark : List Char
  /-- The text of every NaN. -/
  nan : List Char
  /-- The text of the infinity with the given sign. -/
  infinite : Bool → List Char

namespace FloatFormat

/-- Digits, then zeros up to the point, or a point among the digits, or zeros
between the point and the digits. -/
def positional (wholeMark : List Char) (digits : List Char) (exponent : Int) : List Char :=
  if 0 ≤ exponent then digits ++ List.replicate exponent.toNat '0' ++ wholeMark
  else
    let places := (-exponent).toNat
    if places < digits.length then
      digits.take (digits.length - places) ++ '.' :: digits.drop (digits.length - places)
    else '0' :: '.' :: List.replicate (places - digits.length) '0' ++ digits

/-- One digit before the point and an exponent with a sign. -/
def scientific (digits : List Char) (order : Int) : List Char :=
  let sign := if order < 0 then '-' else '+'
  let mantissa := match digits with
    | first :: second :: rest => first :: '.' :: second :: rest
    | short => short
  mantissa ++ 'e' :: sign :: writeNatural order.natAbs

/-- The text of a magnitude that is neither infinite nor NaN. -/
def writeMagnitude (format : FloatFormat) (magnitude : Nat) : List Char :=
  if magnitude = 0 then '0' :: format.wholeMark
  else
    let decimal := shortest format.tie magnitude
    let digits := writeNatural decimal.digits
    let order := decimal.exponent + digits.length - 1
    if format.isPositional order then positional format.wholeMark digits decimal.exponent
    else scientific digits order

/-- The text of a number. -/
def write (format : FloatFormat) (x : Binary64) : List Char :=
  if x.isNaN then format.nan
  else if x.isInfinite then format.infinite x.isNegative
  else if x.isNegative then '-' :: format.writeMagnitude x.magnitude
  else format.writeMagnitude x.magnitude

/-- For reading by people: never an exponent, no mark after a whole number. -/
def plain : FloatFormat where
  tie := .up
  isPositional := fun _ => true
  wholeMark := []
  nan := "NaN".toList
  infinite := fun negative => if negative then "-inf".toList else "inf".toList

/-- For JSON: an exponent outside of `1e-5` to `1e16`, always a point or an
exponent, and `null` for what JSON has no numeral for. -/
def json : FloatFormat where
  tie := .toEven
  isPositional := fun order => -5 ≤ order && order < 16
  wholeMark := ".0".toList
  nan := "null".toList
  infinite := fun _ => "null".toList

end FloatFormat

end RuleNet.Number
