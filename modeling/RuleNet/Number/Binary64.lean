/-!
# Double-precision numbers, exactly

A double-precision number is kept as its 64 bits, so the sign of zero and the
payload of a NaN are never lost. All arithmetic is exact arithmetic on natural
numbers followed by one rounding (`nearestMagnitude`), so every definition
here computes inside the logic.

The lower 63 bits (`magnitude`) are ordered like the absolute values they
stand for: consecutive magnitudes are neighbouring numbers. `rank` adds the
sign, both zeros have rank 0, and `le` compares ranks; a NaN is comparable to
nothing, itself included (`le_self_iff`).
-/

namespace RuleNet.Number

/-- A double-precision number, given by its bits. -/
structure Binary64 where
  /-- One sign bit, eleven exponent bits and 52 fraction bits. -/
  bits : UInt64
deriving DecidableEq, Inhabited, Repr

namespace Binary64

/-! ## Fields -/

/-- The magnitude of infinity: all exponent bits set, no fraction. -/
def infinityMagnitude : Nat := 0x7FF <<< 52

/-- The bits without the sign. -/
def magnitude (x : Binary64) : Nat := x.bits.toNat % (1 <<< 63)

/-- The sign bit is set. -/
def isNegative (x : Binary64) : Bool := decide (1 <<< 63 ≤ x.bits.toNat)

/-- All exponent bits are set and the fraction is not zero. -/
def isNaN (x : Binary64) : Bool := decide (infinityMagnitude < x.magnitude)

/-- One of the two infinities. -/
def isInfinite (x : Binary64) : Bool := decide (x.magnitude = infinityMagnitude)

/-- The number with the given sign and magnitude. -/
def ofMagnitude (negative : Bool) (magnitude : Nat) : Binary64 :=
  ⟨UInt64.ofNat (if negative then (1 <<< 63) + magnitude else magnitude)⟩

/-- The canonical NaN with the given sign. -/
def nan (negative : Bool) : Binary64 := ofMagnitude negative (infinityMagnitude + (1 <<< 51))

/-- The infinity with the given sign. -/
def infinity (negative : Bool) : Binary64 := ofMagnitude negative infinityMagnitude

/-! ## Order -/

/-- The place of a number on the line of all numbers that are not NaN. -/
def rank (x : Binary64) : Int :=
  if x.isNegative then -(x.magnitude : Int) else x.magnitude

/-- Less or equal; false when either side is a NaN. -/
def le (x y : Binary64) : Bool :=
  !x.isNaN && !y.isNaN && decide (x.rank ≤ y.rank)

/-- Equal as numbers: the two zeros are, a NaN is equal to nothing. -/
def same (x y : Binary64) : Bool :=
  !x.isNaN && !y.isNaN && decide (x.rank = y.rank)

theorem le_self_iff (x : Binary64) : x.le x = true ↔ x.isNaN = false := by
  simp [le]

theorem le_trans {x y z : Binary64} (hxy : x.le y = true) (hyz : y.le z = true) :
    x.le z = true := by
  simp only [le, Bool.and_eq_true, Bool.not_eq_true', decide_eq_true_eq] at *
  exact ⟨⟨hxy.1.1, hyz.1.2⟩, Int.le_trans hxy.2 hyz.2⟩

/-- Comparable numbers are not NaN. -/
theorem not_isNaN_of_le {x y : Binary64} (h : x.le y = true) :
    x.isNaN = false ∧ y.isNaN = false := by
  simp only [le, Bool.and_eq_true, Bool.not_eq_true'] at h
  exact h.1

/-! ## The value of a finite magnitude -/

/-- The pair `(m, e)` with the value `m * 2 ^ (e - 1074)`; `m` has 53 bits
unless `e = 0`. -/
def decompose (magnitude : Nat) : Nat × Nat :=
  let field := magnitude / (1 <<< 52)
  let fraction := magnitude % (1 <<< 52)
  if field = 0 then (fraction, 0) else ((1 <<< 52) + fraction, field - 1)

/-- The value of a finite magnitude as a fraction `(numerator, denominator)`. -/
def toFraction (magnitude : Nat) : Nat × Nat :=
  let (m, e) := decompose magnitude
  (m <<< e, 1 <<< 1074)

/-! ## Rounding -/

/-- The quotient rounded to a whole number, a half going to the even side. -/
def divideHalfEven (numerator denominator : Nat) : Nat :=
  let quotient := numerator / denominator
  let twice := 2 * (numerator % denominator)
  if twice < denominator then quotient
  else if denominator < twice then quotient + 1
  else quotient + quotient % 2

/-- The exponent `e` such that the quotient has 53 bits before the point in
units of `2 ^ (e - 1074)`, or 0 when it is too small for that. -/
def exponentFor (numerator denominator : Nat) : Nat :=
  let guess := numerator.log2 + 1022 - denominator.log2
  let tooLarge := numerator <<< 1074 < denominator <<< (guess + 52)
  if tooLarge then guess - 1 else guess

/-- The magnitude nearest to the quotient of two natural numbers, the
denominator not being zero. A half goes to the magnitude with an even last
bit; what is too large becomes infinity.

A carry out of the 53 bits moves to the next exponent by itself, since
consecutive magnitudes are consecutive numbers. -/
def nearestMagnitude (numerator denominator : Nat) : Nat :=
  if numerator = 0 then 0
  else
    let e := exponentFor numerator denominator
    let m := divideHalfEven (numerator <<< 1074) (denominator <<< e)
    min ((e <<< 52) + m) infinityMagnitude

/-- The magnitude nearest to `digits * 10 ^ exponent`. Exponents that are
certain to overflow or to vanish are decided without the power. -/
def nearestDecimal (digits : Nat) (exponent : Int) : Nat :=
  if digits = 0 then 0
  else if 310 < exponent then infinityMagnitude
  else if exponent + (digits.log2 : Int) < -1100 then 0
  else if 0 ≤ exponent then nearestMagnitude (digits * Nat.pow 10 exponent.toNat) 1
  else nearestMagnitude digits (Nat.pow 10 (-exponent).toNat)

/-- The product of two finite magnitudes, rounded. -/
def multiply (a b : Nat) : Nat :=
  let (na, da) := toFraction a
  let (nb, db) := toFraction b
  nearestMagnitude (na * nb) (da * db)

/-- The quotient of two finite magnitudes, rounded; the divisor is not zero. -/
def divide (a b : Nat) : Nat :=
  let (na, da) := toFraction a
  let (nb, db) := toFraction b
  nearestMagnitude (na * db) (da * nb)

/-- An integer, rounded. -/
def ofInt (n : Int) : Binary64 :=
  ofMagnitude (decide (n < 0)) (nearestMagnitude n.natAbs 1)

end Binary64

end RuleNet.Number
