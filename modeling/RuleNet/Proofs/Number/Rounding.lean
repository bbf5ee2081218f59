import Mathlib.Algebra.Order.Ring.Nat
import Mathlib.Tactic.Ring
import RuleNet.Number.Binary64

/-!
# Rounding a quotient

The exponent that a quotient of natural numbers is rounded with is the only one
that puts its first bit into place (`Binade`). So rounding sees the quotient
alone, and not the numbers it is written with (`nearestMagnitude_congr`).

Where a magnitude has exactly the value of a quotient (`Exact`), rounding the
quotient gives it back, and a product or a quotient of such magnitudes is rounded
only once.

* `nearestMagnitude_of_exact`: a magnitude is the nearest one to its own value.
* `exact_nearestMagnitude`: 53 bits, with zeros behind them, are not rounded.
* `multiply_of_exact`, `divide_of_exact`: products and quotients of exact operands.
* `distance_nearestMagnitude_le`: no magnitude is nearer than the one that is taken.
* `nearestDecimal_eq`: a decimal is rounded like the quotient that it stands for.
* `le_ofMagnitude_iff`: numbers of one sign are ordered like their magnitudes.
-/

namespace RuleNet.Number.Binary64

variable {n d n' d' e e' : Nat}

/-! ## The exponent -/

/-- The binary places after the point of the finest magnitudes. No step of a proof is to
compute the power of two that belongs to it. -/
@[irreducible] def places : Nat := 1074

theorem places_eq : places = 1074 := by rw [places]

theorem shiftLeft_places (n : Nat) : n <<< 1074 = n * 2 ^ places :=
  (congrArg (n <<< ·) places_eq.symm).trans (Nat.shiftLeft_eq n places)

/-- In units of `2 ^ (e - places)` the quotient has 53 bits before the point, or fewer
if the exponent is 0. -/
structure Binade (n d e : Nat) : Prop where
  low : e = 0 ∨ d * 2 ^ (e + 52) ≤ n * 2 ^ places
  high : n * 2 ^ places < d * 2 ^ (e + 53)

theorem quotient_lt (denominator : d ≠ 0) (enough : n.log2 + 1022 ≤ d.log2 + e) :
    n * 2 ^ places < d * 2 ^ (e + 53) := by
  calc n * 2 ^ places
      < 2 ^ (n.log2 + 1) * 2 ^ places :=
        Nat.mul_lt_mul_of_pos_right Nat.lt_log2_self (Nat.two_pow_pos _)
    _ = 2 ^ (n.log2 + 1 + places) := (Nat.pow_add ..).symm
    _ ≤ 2 ^ (d.log2 + (e + 53)) := Nat.pow_le_pow_right Nat.two_pos (by rw [places_eq]; omega)
    _ = 2 ^ d.log2 * 2 ^ (e + 53) := Nat.pow_add ..
    _ ≤ d * 2 ^ (e + 53) := Nat.mul_le_mul_right _ (Nat.log2_self_le denominator)

theorem le_quotient (numerator : n ≠ 0) (enough : d.log2 + e ≤ n.log2 + 1021) :
    d * 2 ^ (e + 52) ≤ n * 2 ^ places := by
  calc d * 2 ^ (e + 52)
      ≤ 2 ^ (d.log2 + 1) * 2 ^ (e + 52) := Nat.mul_le_mul_right _ Nat.lt_log2_self.le
    _ = 2 ^ (d.log2 + 1 + (e + 52)) := (Nat.pow_add ..).symm
    _ ≤ 2 ^ (n.log2 + places) := Nat.pow_le_pow_right Nat.two_pos (by rw [places_eq]; omega)
    _ = 2 ^ n.log2 * 2 ^ places := Nat.pow_add ..
    _ ≤ n * 2 ^ places := Nat.mul_le_mul_right _ (Nat.log2_self_le numerator)

theorem binade_exponentFor (numerator : n ≠ 0) (denominator : d ≠ 0) :
    Binade n d (exponentFor n d) := by
  unfold exponentFor
  dsimp only
  rw [shiftLeft_places, Nat.shiftLeft_eq]
  generalize guessed : n.log2 + 1022 - d.log2 = guess
  split
  · next tooLarge =>
    rcases Nat.eq_zero_or_pos guess with rfl | positive
    · exact ⟨.inl rfl, tooLarge.trans_le
        (Nat.mul_le_mul_left _ (Nat.pow_le_pow_right Nat.two_pos (Nat.le_succ 52)))⟩
    · refine ⟨.inr (le_quotient numerator (by omega)), ?_⟩
      rwa [show guess - 1 + 53 = guess + 52 by omega]
  · next large => exact ⟨.inr (Nat.le_of_not_lt large), quotient_lt denominator (by omega)⟩

namespace Binade

/-- The exponent is the only one. -/
theorem le (binade : Binade n d e) (other : Binade n d e') : e ≤ e' := by
  rcases binade.low with rfl | low
  · exact Nat.zero_le e'
  · have powers : 2 ^ (e + 52) < 2 ^ (e' + 53) :=
      Nat.lt_of_mul_lt_mul_left (low.trans_lt other.high)
    have := (Nat.pow_lt_pow_iff_right Nat.one_lt_two).mp powers
    omega

theorem exponentFor_eq (binade : Binade n d e) (numerator : n ≠ 0) (denominator : d ≠ 0) :
    exponentFor n d = e :=
  Nat.le_antisymm ((binade_exponentFor numerator denominator).le binade)
    (binade.le (binade_exponentFor numerator denominator))

theorem scale (binade : Binade n d e) {c : Nat} (positive : 0 < c) : Binade (c * n) (c * d) e where
  low := binade.low.imp_right fun low => by
    rw [Nat.mul_assoc, Nat.mul_assoc]
    exact Nat.mul_le_mul_left c low
  high := by
    rw [Nat.mul_assoc, Nat.mul_assoc]
    exact Nat.mul_lt_mul_of_pos_left binade.high positive

end Binade

/-! ## Only the quotient counts -/

theorem nearestMagnitude_zero (d : Nat) : nearestMagnitude 0 d = 0 := if_pos rfl

theorem nearestMagnitude_eq (numerator : n ≠ 0) :
    nearestMagnitude n d =
      min (exponentFor n d * 2 ^ 52 +
        divideHalfEven (n * 2 ^ places) (d * 2 ^ exponentFor n d)) infinityMagnitude := by
  rw [nearestMagnitude, if_neg numerator]
  dsimp only
  rw [shiftLeft_places, Nat.shiftLeft_eq, Nat.shiftLeft_eq]

theorem divideHalfEven_scale {c : Nat} (positive : 0 < c) (n d : Nat) :
    divideHalfEven (c * n) (c * d) = divideHalfEven n d := by
  have twice : 2 * (c * (n % d)) = c * (2 * (n % d)) := Nat.mul_left_comm 2 c _
  unfold divideHalfEven
  simp only [Nat.mul_div_mul_left _ _ positive, Nat.mul_mod_mul_left, twice,
    Nat.mul_lt_mul_left positive]

theorem nearestMagnitude_scale {c : Nat} (positive : 0 < c) (denominator : d ≠ 0) :
    nearestMagnitude (c * n) (c * d) = nearestMagnitude n d := by
  by_cases numerator : n = 0
  · rw [numerator, Nat.mul_zero, nearestMagnitude_zero, nearestMagnitude_zero]
  · have scaled := (binade_exponentFor numerator denominator).scale positive
    have nonzero : c * n ≠ 0 := Nat.mul_ne_zero positive.ne' numerator
    rw [nearestMagnitude_eq numerator, nearestMagnitude_eq nonzero,
      scaled.exponentFor_eq nonzero (Nat.mul_ne_zero positive.ne' denominator)]
    simp only [Nat.mul_assoc, divideHalfEven_scale positive]

/-- Equal quotients are rounded to the same magnitude. -/
theorem nearestMagnitude_congr (same : n * d' = n' * d) (denominator : d ≠ 0)
    (denominator' : d' ≠ 0) : nearestMagnitude n d = nearestMagnitude n' d' := by
  rw [← nearestMagnitude_scale (Nat.pos_of_ne_zero denominator') denominator,
    ← nearestMagnitude_scale (Nat.pos_of_ne_zero denominator) denominator',
    Nat.mul_comm d' n, same, Nat.mul_comm n' d, Nat.mul_comm d' d]

/-! ## Exact values -/

/-- The magnitude is finite and has the value of the quotient. -/
structure Exact (a n d : Nat) : Prop where
  finite : a < infinityMagnitude
  value : (toFraction a).1 * d = n * (toFraction a).2

theorem toFraction_eq (a : Nat) :
    toFraction a = ((decompose a).1 * 2 ^ (decompose a).2, 2 ^ places) := by
  unfold toFraction
  dsimp only
  rw [shiftLeft_places, Nat.one_mul, Nat.shiftLeft_eq]

theorem toFraction_snd_ne_zero (a : Nat) : (toFraction a).2 ≠ 0 := by
  rw [toFraction_eq]
  exact (Nat.two_pow_pos places).ne'

/-- A magnitude is put together from its parts. -/
theorem decompose_add {m : Nat} (low : e = 0 ∨ 2 ^ 52 ≤ m) (high : m < 2 ^ 53) :
    decompose (e * 2 ^ 52 + m) = (m, e) := by
  unfold decompose
  dsimp only
  rw [Nat.one_shiftLeft]
  by_cases small : m < 2 ^ 52
  · obtain rfl : e = 0 := low.resolve_right (Nat.not_le.mpr small)
    rw [Nat.zero_mul, Nat.zero_add, Nat.div_eq_of_lt small, Nat.mod_eq_of_lt small]
    rfl
  · have field : (e * 2 ^ 52 + m) / 2 ^ 52 = e + 1 := by omega
    have fraction : (e * 2 ^ 52 + m) % 2 ^ 52 = m - 2 ^ 52 := by omega
    rw [field, fraction, if_neg (Nat.succ_ne_zero e)]
    exact Prod.ext (by simp only; omega) rfl

/-- The parts of a magnitude put together. -/
theorem decompose_spec {a m : Nat} (parts : decompose a = (m, e)) :
    e * 2 ^ 52 + m = a ∧ (e = 0 ∨ 2 ^ 52 ≤ m) ∧ m < 2 ^ 53 := by
  unfold decompose at parts
  dsimp only at parts
  rw [Nat.one_shiftLeft] at parts
  have whole := Nat.div_add_mod a (2 ^ 52)
  have small := Nat.mod_lt a (Nat.two_pow_pos 52)
  generalize a / 2 ^ 52 = field at *
  generalize a % 2 ^ 52 = fraction at *
  split at parts
  · next zero =>
    cases parts
    subst zero
    exact ⟨by omega, .inl rfl, by omega⟩
  · cases parts
    exact ⟨by omega, .inr (by omega), by omega⟩

/-- Parts that are in place are rounded to the magnitude that they make up. -/
theorem nearestMagnitude_of_parts {m : Nat} (binade : Binade n d e) (numerator : n ≠ 0)
    (denominator : d ≠ 0) (exact : n * 2 ^ places = m * (d * 2 ^ e)) :
    nearestMagnitude n d = min (e * 2 ^ 52 + m) infinityMagnitude := by
  have unit : 0 < d * 2 ^ e := Nat.mul_pos (Nat.pos_of_ne_zero denominator) (Nat.two_pow_pos e)
  rw [nearestMagnitude_eq numerator, binade.exponentFor_eq numerator denominator, exact]
  simp only [divideHalfEven, Nat.mul_div_cancel _ unit, Nat.mul_mod_left, Nat.mul_zero, if_pos unit]

/-- A finite magnitude is the nearest one to its own value. -/
theorem nearestMagnitude_toFraction {a : Nat} (finite : a < infinityMagnitude) :
    nearestMagnitude (toFraction a).1 (toFraction a).2 = a := by
  rw [toFraction_eq]
  generalize parts : decompose a = pair
  obtain ⟨m, e⟩ := pair
  obtain ⟨whole, low, high⟩ := decompose_spec parts
  dsimp only
  by_cases zero : m = 0
  · obtain rfl : e = 0 := low.resolve_right (by rw [zero]; decide)
    rw [zero, Nat.zero_mul, nearestMagnitude_zero, ← whole, zero, Nat.zero_mul]
  · have unit : 2 ^ places ≠ 0 := (Nat.two_pow_pos places).ne'
    have numerator : m * 2 ^ e ≠ 0 := Nat.mul_ne_zero zero (Nat.two_pow_pos e).ne'
    have binade : Binade (m * 2 ^ e) (2 ^ places) e := by
      have shift (k : Nat) : 2 ^ places * 2 ^ (e + k) = 2 ^ k * 2 ^ e * 2 ^ places := by ring
      constructor
      · rw [shift]
        exact low.imp_right fun low =>
          Nat.mul_le_mul_right _ (Nat.mul_le_mul_right _ low)
      · rw [shift]
        exact Nat.mul_lt_mul_of_pos_right
          (Nat.mul_lt_mul_of_pos_right high (Nat.two_pow_pos e)) (Nat.two_pow_pos places)
    rw [nearestMagnitude_of_parts binade numerator unit (m := m) (by ring), whole]
    exact Nat.min_eq_left finite.le

theorem nearestMagnitude_of_exact {a : Nat} (exact : Exact a n d) (denominator : d ≠ 0) :
    nearestMagnitude n d = a := by
  rw [← nearestMagnitude_congr exact.value (toFraction_snd_ne_zero a) denominator]
  exact nearestMagnitude_toFraction exact.finite

/-- A quotient that is a whole number of units in the right place is not rounded. -/
theorem exact_of_dvd (denominator : d ≠ 0) (numerator : n ≠ 0)
    (binade : Binade n d e) (whole : d * 2 ^ e ∣ n * 2 ^ places) (bound : e ≤ 2044) :
    Exact (nearestMagnitude n d) n d := by
  obtain ⟨m, parts⟩ := whole
  have unit : 0 < d * 2 ^ e := Nat.mul_pos (Nat.pos_of_ne_zero denominator) (Nat.two_pow_pos e)
  have shift (k : Nat) : d * 2 ^ (e + k) = d * 2 ^ e * 2 ^ k := by ring
  have low : e = 0 ∨ 2 ^ 52 ≤ m := binade.low.imp_right fun low => by
    rw [shift, parts] at low
    exact Nat.le_of_mul_le_mul_left low unit
  have high : m < 2 ^ 53 := by
    have high := binade.high
    rw [shift, parts] at high
    exact Nat.lt_of_mul_lt_mul_left high
  have finite : e * 2 ^ 52 + m < infinityMagnitude := by
    have limit : infinityMagnitude = 2047 * 2 ^ 52 := by decide
    omega
  rw [nearestMagnitude_of_parts binade numerator denominator (m := m) (by rw [parts, Nat.mul_comm]),
    Nat.min_eq_left finite.le]
  refine ⟨finite, ?_⟩
  rw [toFraction_eq, decompose_add low high]
  dsimp only
  rw [parts]
  ring

/-- The exponent is at most the one of a bound on the quotient. -/
theorem Binade.lt_of_lt {k : Nat} (binade : Binade n d e) (small : n < d * 2 ^ k) :
    e = 0 ∨ e + 52 < k + places := by
  refine binade.low.imp_right fun low => ?_
  have powers : d * 2 ^ (e + 52) < d * 2 ^ (k + places) :=
    calc d * 2 ^ (e + 52) ≤ n * 2 ^ places := low
      _ < d * 2 ^ k * 2 ^ places := Nat.mul_lt_mul_of_pos_right small (Nat.two_pow_pos places)
      _ = d * 2 ^ (k + places) := by ring
  exact (Nat.pow_lt_pow_iff_right Nat.one_lt_two).mp (Nat.lt_of_mul_lt_mul_left powers)

/-- A number of 53 bits with zeros behind them is not rounded. -/
theorem exact_nearestMagnitude {m k : Nat} (short : m < 2 ^ 53) (bound : k ≤ 970) :
    Exact (nearestMagnitude (m * 2 ^ k) 1) (m * 2 ^ k) 1 := by
  by_cases zero : m = 0
  · rw [zero, Nat.zero_mul, nearestMagnitude_zero]
    exact ⟨by decide, by rw [toFraction_eq, Nat.zero_mul]; rfl⟩
  · have numerator : m * 2 ^ k ≠ 0 := Nat.mul_ne_zero zero (Nat.two_pow_pos k).ne'
    have binade := binade_exponentFor numerator Nat.one_ne_zero
    have small : m * 2 ^ k < 1 * 2 ^ (53 + k) := by
      rw [Nat.one_mul, Nat.pow_add]
      exact Nat.mul_lt_mul_of_pos_right short (Nat.two_pow_pos k)
    have inPlace := binade.lt_of_lt small
    have one := places_eq
    refine exact_of_dvd Nat.one_ne_zero numerator binade ?_ (by omega)
    rw [Nat.one_mul, Nat.mul_assoc, ← Nat.pow_add]
    exact Dvd.dvd.mul_left (Nat.pow_dvd_pow 2 (by omega)) m

/-! ## Products and quotients -/

section Operands

variable {a a' : Nat}

theorem multiply_of_exact (exact : Exact a n d) (exact' : Exact a' n' d') (denominator : d ≠ 0)
    (denominator' : d' ≠ 0) : multiply a a' = nearestMagnitude (n * n') (d * d') := by
  refine nearestMagnitude_congr ?_
    (Nat.mul_ne_zero (toFraction_snd_ne_zero a) (toFraction_snd_ne_zero a'))
    (Nat.mul_ne_zero denominator denominator')
  calc (toFraction a).1 * (toFraction a').1 * (d * d')
      = (toFraction a).1 * d * ((toFraction a').1 * d') := by ring
    _ = n * (toFraction a).2 * (n' * (toFraction a').2) := by rw [exact.value, exact'.value]
    _ = n * n' * ((toFraction a).2 * (toFraction a').2) := by ring

theorem divide_of_exact (exact : Exact a n d) (exact' : Exact a' n' d') (denominator : d ≠ 0)
    (numerator' : n' ≠ 0) : divide a a' = nearestMagnitude (n * d') (d * n') := by
  have nonzero : (toFraction a').1 ≠ 0 := by
    intro zero
    have value := exact'.value
    rw [zero, Nat.zero_mul] at value
    exact Nat.mul_ne_zero numerator' (toFraction_snd_ne_zero a') value.symm
  refine nearestMagnitude_congr ?_ (Nat.mul_ne_zero (toFraction_snd_ne_zero a) nonzero)
    (Nat.mul_ne_zero denominator numerator')
  calc (toFraction a).1 * (toFraction a').2 * (d * n')
      = (toFraction a).1 * d * (n' * (toFraction a').2) := by ring
    _ = n * (toFraction a).2 * ((toFraction a').1 * d') := by rw [exact.value, exact'.value]
    _ = n * d' * ((toFraction a).2 * (toFraction a').1) := by ring

end Operands

theorem divideHalfEven_le (n d : Nat) : divideHalfEven n d ≤ n / d + 1 := by
  unfold divideHalfEven
  dsimp only
  split
  · omega
  · split <;> omega

theorem le_divideHalfEven (n d : Nat) : n / d ≤ divideHalfEven n d := by
  unfold divideHalfEven
  dsimp only
  split
  · omega
  · split <;> omega

/-- With an exponent other than 0, rounding leaves at least 53 bits. -/
theorem Binade.le_divideHalfEven (binade : Binade n d e) (denominator : d ≠ 0) (positive : e ≠ 0) :
    2 ^ 52 ≤ divideHalfEven (n * 2 ^ places) (d * 2 ^ e) := by
  have unit : 0 < d * 2 ^ e := Nat.mul_pos (Nat.pos_of_ne_zero denominator) (Nat.two_pow_pos e)
  have low := binade.low.resolve_left positive
  refine ((Nat.le_div_iff_mul_le unit).mpr ?_).trans (Binary64.le_divideHalfEven _ _)
  exact le_of_eq_of_le (by ring) low

/-- What is far from too large does not become infinity. -/
theorem nearestMagnitude_lt {k : Nat} (small : n < d * 2 ^ k) (bound : k ≤ 970) :
    nearestMagnitude n d < infinityMagnitude := by
  have limit : infinityMagnitude = 2047 * 2 ^ 52 := by decide
  by_cases numerator : n = 0
  · rw [numerator, nearestMagnitude_zero, limit]
    decide
  · have denominator : d ≠ 0 := by
      rintro rfl
      omega
    have binade := binade_exponentFor numerator denominator
    have one := places_eq
    have inPlace := binade.lt_of_lt small
    have quotient : n * 2 ^ places / (d * 2 ^ exponentFor n d) < 2 ^ 53 := by
      refine Nat.div_lt_of_lt_mul (binade.high.trans_eq ?_)
      ring
    have rounded := divideHalfEven_le (n * 2 ^ places) (d * 2 ^ exponentFor n d)
    rw [nearestMagnitude_eq numerator]
    omega

theorem nearestMagnitude_le (n d : Nat) : nearestMagnitude n d ≤ infinityMagnitude := by
  unfold nearestMagnitude
  split
  · exact Nat.zero_le _
  · exact Nat.min_le_right _ _

theorem multiply_le (a b : Nat) : multiply a b ≤ infinityMagnitude := nearestMagnitude_le _ _

theorem divide_le (a b : Nat) : divide a b ≤ infinityMagnitude := nearestMagnitude_le _ _

/-! ## The nearest magnitude -/

/-- How far a magnitude is from a quotient, as a multiple of a unit that is the same for
all magnitudes. -/
def distance (a n d : Nat) : Nat :=
  (((toFraction a).1 * d : Nat) - (n * 2 ^ places : Nat) : Int).natAbs

/-- Rounding takes a whole number that is nearest. -/
theorem divideHalfEven_nearest (positive : 0 < d) (n k : Nat) :
    ((divideHalfEven n d * d : Nat) - n : Int).natAbs ≤ ((k * d : Nat) - n : Int).natAbs := by
  have whole : n / d * d + n % d = n := Nat.div_add_mod' n d
  have less : n % d < d := Nat.mod_lt n positive
  have above : (n / d + 1) * d = n / d * d + d := Nat.succ_mul _ _
  have chosen : divideHalfEven n d = n / d ∧ 2 * (n % d) ≤ d ∨
      divideHalfEven n d = n / d + 1 ∧ d ≤ 2 * (n % d) := by
    unfold divideHalfEven
    dsimp only
    split
    · omega
    · split <;> omega
  have side : k * d ≤ n / d * d ∨ n / d * d + d ≤ k * d := by
    rcases Nat.lt_or_ge (n / d) k with beyond | within
    · exact .inr (above ▸ Nat.mul_le_mul_right d beyond)
    · exact .inl (Nat.mul_le_mul_right d within)
  rcases chosen with ⟨down, near⟩ | ⟨up, near⟩
  · rw [down]
    omega
  · rw [up]
    omega

theorem natAbs_sub_le_natAbs_sub {x y z : Nat} (below : x ≤ y) (low : y ≤ z) :
    ((y : Int) - z).natAbs ≤ ((x : Int) - z).natAbs := by
  omega

/-- What a quotient is rounded to, unless it is too large, has the value of the whole number
of units that the quotient is rounded to. -/
theorem toFraction_nearestMagnitude (numerator : n ≠ 0) (denominator : d ≠ 0)
    (finite : nearestMagnitude n d < infinityMagnitude) :
    (toFraction (nearestMagnitude n d)).1 =
      divideHalfEven (n * 2 ^ places) (d * 2 ^ exponentFor n d) * 2 ^ exponentFor n d := by
  have binade := binade_exponentFor numerator denominator
  rw [nearestMagnitude_eq numerator] at finite ⊢
  rw [Nat.min_eq_left (by omega)]
  generalize exponentFor n d = e at *
  have unit : 0 < d * 2 ^ e := Nat.mul_pos (Nat.pos_of_ne_zero denominator) (Nat.two_pow_pos e)
  have most := divideHalfEven_le (n * 2 ^ places) (d * 2 ^ e)
  have low : e = 0 ∨ 2 ^ 52 ≤ divideHalfEven (n * 2 ^ places) (d * 2 ^ e) :=
    or_iff_not_imp_left.mpr (binade.le_divideHalfEven denominator)
  have high : n * 2 ^ places / (d * 2 ^ e) < 2 ^ 53 :=
    Nat.div_lt_of_lt_mul (binade.high.trans_eq (by ring))
  rw [toFraction_eq]
  generalize divideHalfEven (n * 2 ^ places) (d * 2 ^ e) = m at *
  rcases Nat.lt_or_ge m (2 ^ 53) with short | carry
  · rw [decompose_add low short]
  · -- the carry moves to the next exponent
    obtain rfl : m = 2 ^ 53 := by omega
    rw [show e * 2 ^ 52 + 2 ^ 53 = (e + 1) * 2 ^ 52 + 2 ^ 52 by ring,
      decompose_add (.inr (Nat.le_refl _)) (by decide)]
    ring

/-- No magnitude is nearer to a quotient than the one that it is rounded to. -/
theorem distance_nearestMagnitude_le (denominator : d ≠ 0)
    (finite : nearestMagnitude n d < infinityMagnitude) (b : Nat) :
    distance (nearestMagnitude n d) n d ≤ distance b n d := by
  by_cases numerator : n = 0
  · have none : distance (nearestMagnitude n d) n d = 0 := by
      rw [numerator, nearestMagnitude_zero, distance, toFraction_eq, Nat.zero_mul]
      simp [decompose]
    exact none ▸ Nat.zero_le _
  · have binade := binade_exponentFor numerator denominator
    have value := toFraction_nearestMagnitude numerator denominator finite
    have unit : 0 < d * 2 ^ exponentFor n d :=
      Nat.mul_pos (Nat.pos_of_ne_zero denominator) (Nat.two_pow_pos _)
    have nearest := divideHalfEven_nearest unit (n * 2 ^ places)
    have own : distance (nearestMagnitude n d) n d =
        ((divideHalfEven (n * 2 ^ places) (d * 2 ^ exponentFor n d) *
            (d * 2 ^ exponentFor n d) : Nat) - (n * 2 ^ places : Nat) : Int).natAbs := by
      rw [distance, value, Nat.mul_assoc, Nat.mul_comm _ d]
    rw [own, distance, toFraction_eq]
    generalize parts : decompose b = pair
    obtain ⟨m, e⟩ := pair
    obtain ⟨-, -, high⟩ := decompose_spec parts
    dsimp only
    generalize exponentFor n d = e' at *
    rcases Nat.lt_or_ge e e' with fine | coarse
    · -- the other magnitude is not above the first one with this exponent, the quotient is
      have first := nearest (2 ^ 52)
      have low : 2 ^ 52 * (d * 2 ^ e') ≤ n * 2 ^ places :=
        le_of_eq_of_le (by ring) (binade.low.resolve_left (by omega))
      have below : m * 2 ^ e * d ≤ 2 ^ 52 * (d * 2 ^ e') := by
        calc m * 2 ^ e * d ≤ 2 ^ 53 * 2 ^ e * d :=
              Nat.mul_le_mul_right _ (Nat.mul_le_mul_right _ high.le)
          _ = 2 ^ 52 * (d * 2 ^ (e + 1)) := by ring
          _ ≤ 2 ^ 52 * (d * 2 ^ e') :=
              Nat.mul_le_mul_left _ (Nat.mul_le_mul_left _ (Nat.pow_le_pow_right Nat.two_pos fine))
      exact first.trans (natAbs_sub_le_natAbs_sub below low)
    · -- the other magnitude is a whole number of units as well
      obtain ⟨k, rfl⟩ := Nat.exists_eq_add_of_le coarse
      rw [show m * 2 ^ (e' + k) * d = m * 2 ^ k * (d * 2 ^ e') by ring]
      exact nearest _

/-! ## Decimals -/

/-- A quotient that is larger than all numbers becomes infinity. -/
theorem nearestMagnitude_eq_infinity {k : Nat} (denominator : d ≠ 0) (large : d * 2 ^ k ≤ n)
    (bound : 1024 ≤ k) : nearestMagnitude n d = infinityMagnitude := by
  have limit : infinityMagnitude = 2047 * 2 ^ 52 := by decide
  have numerator : n ≠ 0 :=
    ((Nat.mul_pos (Nat.pos_of_ne_zero denominator) (Nat.two_pow_pos k)).trans_le large).ne'
  have binade := binade_exponentFor numerator denominator
  have powers : d * 2 ^ (k + places) < d * 2 ^ (exponentFor n d + 53) :=
    calc d * 2 ^ (k + places) = d * 2 ^ k * 2 ^ places := by ring
      _ ≤ n * 2 ^ places := Nat.mul_le_mul_right _ large
      _ < d * 2 ^ (exponentFor n d + 53) := binade.high
  have exponent := (Nat.pow_lt_pow_iff_right Nat.one_lt_two).mp (Nat.lt_of_mul_lt_mul_left powers)
  have one := places_eq
  have least := binade.le_divideHalfEven denominator (by omega)
  rw [nearestMagnitude_eq numerator]
  omega

/-- A quotient below half of the least number vanishes. -/
theorem nearestMagnitude_eq_zero (small : n * 2 ^ (places + 1) < d) :
    nearestMagnitude n d = 0 := by
  by_cases numerator : n = 0
  · rw [numerator, nearestMagnitude_zero]
  · have denominator : d ≠ 0 := (Nat.zero_lt_of_lt small).ne'
    have half : 2 * (n * 2 ^ places) < d :=
      calc 2 * (n * 2 ^ places) = n * 2 ^ (places + 1) := by ring
        _ < d := small
    have exponent : exponentFor n d = 0 := by
      refine (binade_exponentFor numerator denominator).low.resolve_right fun low => ?_
      have := (Nat.le_mul_of_pos_right d (Nat.two_pow_pos _)).trans low
      omega
    rw [nearestMagnitude_eq numerator, exponent, Nat.zero_mul, Nat.zero_add, Nat.pow_zero,
      Nat.mul_one, divideHalfEven, Nat.div_eq_of_lt (by omega), Nat.mod_eq_of_lt (by omega),
      if_pos half]
    exact Nat.zero_min _

/-- Ten to the power of 28 is above two to the power of 93. -/
theorem two_pow_le_ten_pow {k m : Nat} (less : 28 * k ≤ 93 * m) : 2 ^ k ≤ 10 ^ m := by
  refine (Nat.pow_le_pow_iff_left (show 28 ≠ 0 by decide)).mp ?_
  calc (2 ^ k) ^ 28 = 2 ^ (28 * k) := by rw [← Nat.pow_mul, Nat.mul_comm]
    _ ≤ 2 ^ (93 * m) := Nat.pow_le_pow_right Nat.two_pos less
    _ = (2 ^ 93) ^ m := Nat.pow_mul ..
    _ ≤ (10 ^ 28) ^ m := Nat.pow_le_pow_left (by decide) m
    _ = (10 ^ m) ^ 28 := by rw [← Nat.pow_mul, ← Nat.pow_mul, Nat.mul_comm]

/-- The magnitude for a decimal is the one that its quotient is rounded to, also where the
power of ten is not computed. -/
theorem nearestDecimal_eq (digits : Nat) (exponent : Int) :
    nearestDecimal digits exponent =
      nearestMagnitude (digits * 10 ^ exponent.toNat) (10 ^ (-exponent).toNat) := by
  have ten (k : Nat) : 10 ^ k ≠ 0 := (Nat.pow_pos (by decide)).ne'
  by_cases zero : digits = 0
  · rw [nearestDecimal, if_pos zero, zero, Nat.zero_mul, nearestMagnitude_zero]
  rw [nearestDecimal, if_neg zero]
  split
  · next large =>
    refine (nearestMagnitude_eq_infinity (k := 1024) (ten _) ?_ (Nat.le_refl _)).symm
    rw [show (-exponent).toNat = 0 by omega, Nat.pow_zero, Nat.one_mul]
    exact (two_pow_le_ten_pow (by omega)).trans
      (Nat.le_mul_of_pos_left _ (Nat.pos_of_ne_zero zero))
  · split
    · next tiny =>
      have one := places_eq
      refine (nearestMagnitude_eq_zero ?_).symm
      rw [show exponent.toNat = 0 by omega, Nat.pow_zero, Nat.mul_one]
      calc digits * 2 ^ (places + 1) < 2 ^ (digits.log2 + 1) * 2 ^ (places + 1) :=
            Nat.mul_lt_mul_of_pos_right Nat.lt_log2_self (Nat.two_pow_pos _)
        _ = 2 ^ (digits.log2 + 1 + (places + 1)) := (Nat.pow_add ..).symm
        _ ≤ 10 ^ (-exponent).toNat := two_pow_le_ten_pow (by omega)
    · split
      · next nonneg => rw [show (-exponent).toNat = 0 by omega, Nat.pow_zero]; rfl
      · next negative => rw [show exponent.toNat = 0 by omega, Nat.pow_zero, Nat.mul_one]; rfl

theorem nearestDecimal_le (digits : Nat) (exponent : Int) :
    nearestDecimal digits exponent ≤ infinityMagnitude := by
  rw [nearestDecimal_eq]
  exact nearestMagnitude_le _ _

/-! ## Numbers of one sign -/

section Signs

variable {a b : Nat}

theorem bits_ofMagnitude (negative : Bool) (notNaN : a ≤ infinityMagnitude) :
    (ofMagnitude negative a).bits.toNat = if negative then 2 ^ 63 + a else a := by
  have limit : infinityMagnitude = 2047 * 2 ^ 52 := by decide
  unfold ofMagnitude
  rw [Nat.one_shiftLeft, UInt64.toNat_ofNat']
  exact Nat.mod_eq_of_lt (by split <;> omega)

theorem magnitude_ofMagnitude (negative : Bool) (notNaN : a ≤ infinityMagnitude) :
    (ofMagnitude negative a).magnitude = a := by
  have limit : infinityMagnitude = 2047 * 2 ^ 52 := by decide
  rw [magnitude, bits_ofMagnitude negative notNaN, Nat.one_shiftLeft]
  split <;> omega

theorem isNegative_ofMagnitude (negative : Bool) (notNaN : a ≤ infinityMagnitude) :
    (ofMagnitude negative a).isNegative = negative := by
  have limit : infinityMagnitude = 2047 * 2 ^ 52 := by decide
  rw [isNegative, bits_ofMagnitude negative notNaN, Nat.one_shiftLeft]
  cases negative with
  | false => exact decide_eq_false (by rw [if_neg Bool.false_ne_true]; omega)
  | true => exact decide_eq_true (by rw [if_pos rfl]; omega)

/-- Numbers of one sign that are not NaN are ordered by their magnitudes. -/
theorem le_ofMagnitude_iff {negative : Bool} (notNaN : a ≤ infinityMagnitude)
    (notNaN' : b ≤ infinityMagnitude) :
    (ofMagnitude negative a).le (ofMagnitude negative b) = true ↔
      if negative then b ≤ a else a ≤ b := by
  simp only [le, isNaN, rank, magnitude_ofMagnitude negative notNaN,
    magnitude_ofMagnitude negative notNaN', isNegative_ofMagnitude negative notNaN,
    isNegative_ofMagnitude negative notNaN', decide_eq_false (Nat.not_lt.mpr notNaN),
    decide_eq_false (Nat.not_lt.mpr notNaN'), Bool.not_false, Bool.true_and, decide_eq_true_eq]
  cases negative <;> simp

/-- One that is below and above another one is the same number. -/
theorem eq_of_le_of_le {negative : Bool} (notNaN : a ≤ infinityMagnitude)
    (notNaN' : b ≤ infinityMagnitude)
    (below : (ofMagnitude negative a).le (ofMagnitude negative b) = true)
    (above : (ofMagnitude negative b).le (ofMagnitude negative a) = true) : a = b := by
  rw [le_ofMagnitude_iff notNaN notNaN'] at below
  rw [le_ofMagnitude_iff notNaN' notNaN] at above
  cases negative with
  | false => exact Nat.le_antisymm below above
  | true => exact Nat.le_antisymm above below

end Signs

end RuleNet.Number.Binary64
