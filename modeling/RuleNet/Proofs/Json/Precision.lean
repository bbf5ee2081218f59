import RuleNet.Proofs.Json.Literal
import RuleNet.Proofs.Number.Rounding

/-!
# How precisely numbers are read

A number stands for its digits times a power of ten (`Literal.digits`,
`Literal.power`). The reader rounds the digits, the power of ten and the result of
the last operation, so it can miss the nearest floating-point number
(`Literal.nearest`). It does not if there is nothing to round before the last
operation (`Literal.IsPrecise`): the digits have at most 53 bits and the power of
ten is exact, or no power of ten is needed and the digits fit into 64 bits.

* `distance_nearest_le`: the nearest floating-point number is a nearest one.
* `floatValue?_of_isPrecise`: a precise number is read as the nearest one.
* `value?_of_isInteger`, `value?_of_minus_zero`: integers have their value, but for one.
-/

namespace RuleNet.Json

open Number (Binary64 naturalOf)
open Number.Binary64

namespace Literal

/-! ## What a number stands for -/

/-- The digits as a whole number, without the point. -/
def digits (literal : Literal) : Nat :=
  naturalOf (literal.whole ++ literal.fraction)

/-- The power of ten that the digits are multiplied with. -/
def power (literal : Literal) : Int :=
  literal.exponentValue - literal.fraction.length

/-- The floating-point number nearest to the number. -/
def nearest (literal : Literal) : Binary64 :=
  Binary64.ofMagnitude literal.negative (nearestDecimal literal.digits literal.power)

/-- No magnitude is nearer to the number, as long as it is not too large. -/
theorem distance_nearest_le (literal : Literal)
    (finite : nearestDecimal literal.digits literal.power < infinityMagnitude) (b : Nat) :
    distance (nearestDecimal literal.digits literal.power)
        (literal.digits * 10 ^ literal.power.toNat) (10 ^ (-literal.power).toNat) ≤
      distance b (literal.digits * 10 ^ literal.power.toNat) (10 ^ (-literal.power).toNat) := by
  rw [nearestDecimal_eq] at finite ⊢
  exact distance_nearestMagnitude_le (Nat.pow_pos (by decide)).ne' finite b

/-- Only the last operation of the reader rounds. -/
inductive IsPrecise (literal : Literal) : Prop
  | zero : literal.digits = 0 → IsPrecise literal
  | short : literal.digits ≤ 2 ^ 53 → -22 ≤ literal.power → literal.power ≤ 22 →
      IsPrecise literal
  | whole : literal.digits ≤ wordMax → literal.power = 0 → IsPrecise literal

/-! ## The digits -/

theorem naturalOf_append (front back : List Char) :
    naturalOf (front ++ back) = naturalOf front * 10 ^ back.length + naturalOf back := by
  unfold naturalOf
  rw [Nat.ofDigitChars_append, Nat.ofDigitChars_eq_ofDigitChars_zero, Nat.mul_comm]

/-- Digits that fit are all absorbed. -/
theorem absorbDigits_eq {significand : Nat} {digits : List Char}
    (fits : significand * 10 ^ digits.length + naturalOf digits ≤ wordMax) :
    absorbDigits significand digits =
      (significand * 10 ^ digits.length + naturalOf digits, 0) := by
  induction digits generalizing significand with
  | nil => simp [absorbDigits, naturalOf]
  | cons c digits ih =>
    have split : significand * 10 ^ (c :: digits).length + naturalOf (c :: digits) =
        (significand * 10 + naturalOf [c]) * 10 ^ digits.length + naturalOf digits := by
      rw [show c :: digits = [c] ++ digits from rfl, naturalOf_append, List.length_append,
        List.length_singleton]
      ring
    rw [split] at fits ⊢
    have next : significand * 10 + naturalOf [c] ≤ wordMax :=
      (Nat.le_mul_of_pos_right _ (Nat.pow_pos (by decide))).trans
        ((Nat.le_add_right _ _).trans fits)
    rw [absorbDigits, if_pos next, ih fits]

/-- Digits that fit into 64 bits are kept as they are. -/
theorem significand_eq {literal : Literal} (fits : literal.digits ≤ wordMax) :
    literal.significand = (literal.digits, -(literal.fraction.length : Int)) := by
  have whole : naturalOf literal.whole * 10 ^ literal.fraction.length +
      naturalOf literal.fraction ≤ wordMax := by
    rwa [← naturalOf_append]
  have front : 0 * 10 ^ literal.whole.length + naturalOf literal.whole ≤ wordMax := by
    rw [Nat.zero_mul, Nat.zero_add]
    exact (Nat.le_mul_of_pos_right _ (Nat.pow_pos (by decide))).trans
      ((Nat.le_add_right _ _).trans whole)
  unfold significand digits
  rw [absorbDigits_eq front]
  simp only [Nat.zero_mul, Nat.zero_add]
  rw [absorbDigits_eq whole, naturalOf_append]
  simp

/-! ## The power of ten -/

theorem exact_natural {n : Nat} (short : n ≤ 2 ^ 53) : Exact (nearestMagnitude n 1) n 1 := by
  rcases Nat.lt_or_eq_of_le short with less | rfl
  · have exact := exact_nearestMagnitude less (k := 0) (by decide)
    rwa [Nat.pow_zero, Nat.mul_one] at exact
  · have exact := exact_nearestMagnitude (m := 1) (k := 53) (by decide) (by decide)
    rwa [Nat.one_mul] at exact

/-- Powers of ten are exact up to the twenty-second, whose odd part has 52 bits. -/
theorem exact_powerOfTen {k : Nat} (small : k ≤ 22) : Exact (powerOfTen k) (10 ^ k) 1 := by
  have odd : 5 ^ k < 2 ^ 53 :=
    (Nat.pow_le_pow_right (by decide) small).trans_lt (by decide : 5 ^ 22 < 2 ^ 53)
  have parts : 10 ^ k = 5 ^ k * 2 ^ k := by rw [← Nat.mul_pow]
  show Exact (nearestMagnitude (10 ^ k) 1) (10 ^ k) 1
  rw [parts]
  exact exact_nearestMagnitude odd (by omega)

/-! ## One rounding -/

section Scale

variable {n : Nat} {e : Int}

theorem scale?_of_nonneg (digits : n ≠ 0) (nonneg : 0 ≤ e) (small : e ≤ 308)
    (product : multiply (nearestMagnitude n 1) (powerOfTen e.toNat) =
      nearestMagnitude (n * 10 ^ e.toNat) 1)
    (finite : nearestMagnitude (n * 10 ^ e.toNat) 1 < infinityMagnitude) :
    scale? n e = some (nearestDecimal n e) := by
  unfold scale?
  dsimp only
  rw [if_neg digits, if_neg (by omega), if_pos nonneg, product, if_neg finite.ne, nearestDecimal_eq,
    show (-e).toNat = 0 by omega, Nat.pow_zero]

theorem scale?_of_neg (digits : n ≠ 0) (negative : e < 0) (small : -308 ≤ e)
    (quotient : divide (nearestMagnitude n 1) (powerOfTen (-e).toNat) =
      nearestMagnitude n (10 ^ (-e).toNat)) :
    scale? n e = some (nearestDecimal n e) := by
  unfold scale?
  dsimp only
  rw [if_neg digits, if_neg (by omega), if_neg (by omega), if_pos small, quotient,
    nearestDecimal_eq, show e.toNat = 0 by omega, Nat.pow_zero, Nat.mul_one]

/-- Digits and a power of ten that are both exact. -/
theorem scale?_of_short (short : n ≤ 2 ^ 53) (lower : -22 ≤ e) (upper : e ≤ 22) :
    scale? n e = some (nearestDecimal n e) := by
  have exact := exact_natural short
  by_cases digits : n = 0
  · rw [digits]
    rfl
  · rcases Int.lt_or_le e 0 with negative | nonneg
    · have power := exact_powerOfTen (k := (-e).toNat) (by omega)
      refine scale?_of_neg digits negative (by omega) ?_
      rw [divide_of_exact exact power Nat.one_ne_zero (Nat.pow_pos (by decide)).ne', Nat.mul_one,
        Nat.one_mul]
    · have power := exact_powerOfTen (k := e.toNat) (by omega)
      refine scale?_of_nonneg digits nonneg (by omega) ?_ ?_
      · rw [multiply_of_exact exact power Nat.one_ne_zero Nat.one_ne_zero]
      · refine nearestMagnitude_lt (k := 127) ?_ (by decide)
        calc n * 10 ^ e.toNat ≤ 2 ^ 53 * 10 ^ 22 :=
              Nat.mul_le_mul short (Nat.pow_le_pow_right (by decide) (by omega))
          _ < 1 * 2 ^ 127 := by decide

/-- Digits that are rounded once, and no power of ten. -/
theorem scale?_of_whole (fits : n ≤ wordMax) : scale? n 0 = some (nearestDecimal n 0) := by
  by_cases digits : n = 0
  · rw [digits]
    rfl
  · have finite : nearestMagnitude n 1 < infinityMagnitude :=
      nearestMagnitude_lt (k := 64) (by rw [wordMax] at fits; omega) (by decide)
    have self : Exact (nearestMagnitude n 1) _ _ := ⟨finite, rfl⟩
    have power := exact_powerOfTen (k := 0) (by decide)
    refine scale?_of_nonneg digits (Int.le_refl 0) (by decide) ?_ ?_ <;>
      rw [Int.toNat_zero, Nat.pow_zero, Nat.mul_one]
    · rw [multiply_of_exact self power (toFraction_snd_ne_zero _) Nat.one_ne_zero, Nat.pow_zero,
        Nat.mul_one, Nat.mul_one, nearestMagnitude_toFraction finite]
    · exact finite

end Scale

theorem scale?_le {significand magnitude : Nat} {exponent : Int}
    (scaled : scale? significand exponent = some magnitude) : magnitude ≤ infinityMagnitude := by
  unfold scale? at scaled
  dsimp only at scaled
  split at scaled
  · cases scaled
    exact Nat.zero_le _
  · split at scaled
    · cases scaled
    · split at scaled
      · split at scaled
        · cases scaled
        · cases scaled
          exact multiply_le _ _
      · split at scaled
        · cases scaled
          exact divide_le _ _
        · split at scaled
          · cases scaled
            exact divide_le _ _
          · cases scaled
            exact Nat.zero_le _

/-- A number is read with its own sign, and never as a NaN. -/
theorem exists_magnitude {literal : Literal} {numeral : Numeral}
    (read : literal.floatValue? = some numeral) :
    ∃ magnitude ≤ infinityMagnitude,
      numeral = .float (Binary64.ofMagnitude literal.negative magnitude) := by
  obtain ⟨magnitude, scaled, same⟩ := Option.map_eq_some_iff.mp read
  exact ⟨magnitude, scale?_le scaled, same.symm⟩

/-- A precise number is read as the nearest floating-point number. -/
theorem floatValue?_of_isPrecise {literal : Literal} (precise : literal.IsPrecise) :
    literal.floatValue? = some (.float literal.nearest) := by
  have fits : literal.digits ≤ wordMax := by
    have limit : 2 ^ 53 ≤ wordMax := by decide
    cases precise with
    | zero zero => omega
    | short short => exact short.trans limit
    | whole fits => exact fits
  have scaled : scale? literal.digits literal.power =
      some (nearestDecimal literal.digits literal.power) := by
    cases precise with
    | zero zero => rw [zero]; rfl
    | short short lower upper => exact scale?_of_short short lower upper
    | whole fits zero => rw [zero]; exact scale?_of_whole fits
  have power : -(literal.fraction.length : Int) + literal.exponentValue = literal.power :=
    (Int.add_comm _ _).trans (Int.sub_eq_add_neg).symm
  unfold floatValue?
  rw [significand_eq fits]
  dsimp only
  rw [power, scaled]
  rfl

/-! ## Integers -/

section Integers

variable {literal : Literal}

/-- The number has neither fraction nor exponent. -/
def IsInteger (literal : Literal) : Prop :=
  literal.fraction = [] ∧ literal.exponent = none

instance (literal : Literal) : Decidable literal.IsInteger :=
  inferInstanceAs (Decidable (_ ∧ _))

/-- The integer that the digits before the point denote. -/
def integer (literal : Literal) : Int :=
  if literal.negative then -(naturalOf literal.whole : Int) else naturalOf literal.whole

/-- An integer of 64 bits has its value, unless it is zero with a minus sign. -/
theorem value?_of_isInteger (isInteger : literal.IsInteger) {word : Int64}
    (fits : word.toInt = literal.integer)
    (nonzero : literal.negative = true → naturalOf literal.whole ≠ 0) :
    literal.value? = some (.integer word.toInt) := by
  have lower := Int64.le_toInt word
  have upper := Int64.toInt_lt word
  obtain ⟨noFraction, noExponent⟩ := isInteger
  rw [fits, integer] at lower upper
  rw [value?, noFraction, noExponent, fits, integer]
  cases negative : literal.negative with
  | false =>
    rw [negative, if_neg Bool.false_ne_true] at lower upper
    have small : naturalOf literal.whole ≤ wordMax := by
      simp only [wordMax]
      omega
    simp [small]
  | true =>
    rw [negative, if_pos rfl] at lower
    have small : naturalOf literal.whole ≤ 0x8000000000000000 := by omega
    simp [small, nonzero negative]

/-- Zero with a minus sign is a floating-point number. -/
theorem value?_of_minus_zero (isInteger : literal.IsInteger) (negative : literal.negative = true)
    (zero : naturalOf literal.whole = 0) : literal.value? = some (.float literal.nearest) := by
  obtain ⟨noFraction, noExponent⟩ := isInteger
  have digits : literal.digits = 0 := by rw [Literal.digits, noFraction, List.append_nil, zero]
  rw [value?, noFraction, noExponent, negative, zero]
  exact floatValue?_of_isPrecise (.zero digits)

theorem value?_of_not_isInteger (other : ¬ literal.IsInteger) :
    literal.value? = literal.floatValue? := by
  unfold value?
  dsimp only
  rw [if_neg]
  rw [Bool.and_eq_true, List.isEmpty_iff, Option.isNone_iff_eq_none]
  exact other

end Integers

end Literal

variable {text : List Char} {literal : Literal}

theorem IsUnsigned.of_integer {whole : List Char} (written : IsUnsigned text whole [] none) :
    text = whole ∧ IsWhole whole := by
  cases written with
  | parts isWhole isFraction isExponent =>
    cases isFraction with
    | absent =>
      cases isExponent
      exact ⟨List.append_nil _, isWhole⟩
    | point numeral => cases numeral

/-- An integer is its digits, behind a minus sign or alone. -/
theorem IsNumber.of_integer (number : IsNumber text literal) (integer : literal.IsInteger) :
    IsWhole literal.whole ∧
      text = if literal.negative then '-' :: literal.whole else literal.whole := by
  obtain ⟨noFraction, noExponent⟩ := integer
  cases number with
  | unsigned written =>
    cases noFraction
    cases noExponent
    obtain ⟨rfl, whole⟩ := written.of_integer
    exact ⟨whole, rfl⟩
  | minus written =>
    cases noFraction
    cases noExponent
    obtain ⟨rfl, whole⟩ := written.of_integer
    exact ⟨whole, rfl⟩

/-- Only zero denotes zero. -/
theorem IsWhole.eq_zero {digits : List Char} (whole : IsWhole digits)
    (zero : naturalOf digits = 0) : digits = ['0'] := by
  obtain ⟨c, more, rfl, digit⟩ := exists_digit whole.numeral
  rw [show c :: more = [c] ++ more from rfl, Literal.naturalOf_append] at zero
  have first : naturalOf [c] = 0 := by
    have power := Nat.pow_pos (n := more.length) (show 0 < 10 by decide)
    exact (Nat.mul_eq_zero.mp (Nat.add_eq_zero_iff.mp zero).1).resolve_right power.ne'
  have value : naturalOf [c] = c.toNat - 48 := by simp [naturalOf, Nat.ofDigitChars]
  have low : 48 ≤ c.toNat := by
    simp only [Char.isDigit, Bool.and_eq_true, decide_eq_true_eq] at digit
    exact digit.1
  have same : c.toNat = '0'.toNat := by
    show c.toNat = 48
    omega
  exact whole.lead (congrArg some (Char.toNat_inj.mp same))

end RuleNet.Json
