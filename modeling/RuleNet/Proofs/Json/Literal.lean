import RuleNet.Json.Numeral
import RuleNet.Text.Blank

/-!
# The grammar of JSON numbers

A number is an optional minus sign, digits without a leading zero, and then
possibly a point with digits and an exponent (`IsNumber`). Every number is scanned
up to its last character, as long as what follows cannot belong to it.

* `scanNumber?_append`: the scanner finds the parts of a number.
* `isNumber_writeSigned`: integers are written as numbers.
-/

namespace RuleNet.Json

open Number (isNumeral naturalOf writeNatural writeSigned)
open Text (isLayout)

/-! ## Numbers -/

/-- Digits without a leading zero; a zero stands alone. -/
structure IsWhole (digits : List Char) : Prop where
  numeral : isNumeral digits = true
  lead : digits.head? = some '0' → digits = ['0']

/-- A point and the digits after it, or nothing. -/
inductive IsFraction : List Char → List Char → Prop
  | absent : IsFraction [] []
  | point {digits : List Char} : isNumeral digits = true → IsFraction ('.' :: digits) digits

/-- Digits behind a sign or without one; the sign is true for a minus. -/
inductive IsSigned : List Char → Bool → List Char → Prop
  | unsigned {digits : List Char} : isNumeral digits = true → IsSigned digits false digits
  | plus {digits : List Char} : isNumeral digits = true → IsSigned ('+' :: digits) false digits
  | minus {digits : List Char} : isNumeral digits = true → IsSigned ('-' :: digits) true digits

/-- An exponent with its sign and its digits, or nothing. -/
inductive IsExponent : List Char → Option (Bool × List Char) → Prop
  | absent : IsExponent [] none
  | marked {mark : Char} {signed digits : List Char} {sign : Bool} :
      mark = 'e' ∨ mark = 'E' → IsSigned signed sign digits →
      IsExponent (mark :: signed) (some (sign, digits))

/-- A number without its sign, with its parts. -/
inductive IsUnsigned : List Char → List Char → List Char → Option (Bool × List Char) → Prop
  | parts {whole pointed fraction marked : List Char} {exponent : Option (Bool × List Char)} :
      IsWhole whole → IsFraction pointed fraction → IsExponent marked exponent →
      IsUnsigned (whole ++ (pointed ++ marked)) whole fraction exponent

/-- A number as it is written, with its parts. -/
inductive IsNumber : List Char → Literal → Prop
  | unsigned {text whole fraction : List Char} {exponent : Option (Bool × List Char)} :
      IsUnsigned text whole fraction exponent → IsNumber text ⟨false, whole, fraction, exponent⟩
  | minus {text whole fraction : List Char} {exponent : Option (Bool × List Char)} :
      IsUnsigned text whole fraction exponent →
      IsNumber ('-' :: text) ⟨true, whole, fraction, exponent⟩

/-- What follows cannot belong to a number. -/
def EndsNumber (rest : List Char) : Prop :=
  ∀ c ∈ rest.head?, c.isDigit = false ∧ c ≠ '.' ∧ c ≠ 'e' ∧ c ≠ 'E'

/-- What follows cannot belong to a run of digits. -/
def EndsDigits (rest : List Char) : Prop :=
  ∀ c ∈ rest.head?, c.isDigit = false

theorem EndsNumber.endsDigits {rest : List Char} (ends : EndsNumber rest) : EndsDigits rest :=
  fun c first => (ends c first).1

/-! ## Scanning -/

variable {digits text rest : List Char}

theorem takeWhile_digits (all : ∀ c ∈ digits, c.isDigit = true) (ends : EndsDigits rest) :
    (digits ++ rest).takeWhile Char.isDigit = digits ∧
      (digits ++ rest).dropWhile Char.isDigit = rest := by
  have stop : rest.takeWhile Char.isDigit = [] ∧ rest.dropWhile Char.isDigit = rest := by
    cases rest with
    | nil => exact ⟨rfl, rfl⟩
    | cons c rest => simp [ends c rfl]
  rw [List.takeWhile_append_of_pos all, List.dropWhile_append_of_pos all, stop.1, stop.2,
    List.append_nil]
  exact ⟨rfl, rfl⟩

theorem forall_isDigit (numeral : isNumeral digits = true) : ∀ c ∈ digits, c.isDigit = true :=
  List.all_eq_true.mp (Bool.and_eq_true_iff.mp numeral).2

/-- A numeral starts with a digit. -/
theorem exists_digit (numeral : isNumeral digits = true) :
    ∃ c more, digits = c :: more ∧ c.isDigit = true := by
  cases digits with
  | nil => cases numeral
  | cons c more => exact ⟨c, more, rfl, forall_isDigit numeral c List.mem_cons_self⟩

theorem scanDigits?_append (numeral : isNumeral digits = true) (ends : EndsDigits rest) :
    scanDigits? (digits ++ rest) = some (digits, rest) := by
  obtain ⟨taken, dropped⟩ := takeWhile_digits (forall_isDigit numeral) ends
  obtain ⟨c, more, same, -⟩ := exists_digit numeral
  unfold scanDigits?
  simp only [taken, dropped]
  rw [if_neg (by simp [same])]

theorem scanWhole?_append (whole : IsWhole digits) (ends : EndsDigits rest) :
    scanWhole? (digits ++ rest) = some (digits, rest) := by
  rw [scanWhole?, scanDigits?_append whole.numeral ends]
  split
  · next same =>
    cases same
    cases whole.lead rfl
  · rfl

theorem scanSigned?_append {sign : Bool} (signed : IsSigned text sign digits)
    (ends : EndsDigits rest) : scanSigned? (text ++ rest) = some ((sign, digits), rest) := by
  cases signed with
  | unsigned numeral =>
    obtain ⟨c, more, rfl, digit⟩ := exists_digit numeral
    have scanned := scanDigits?_append numeral ends
    unfold scanSigned?
    split
    · next same => cases same; exact absurd digit (by decide)
    · next same => cases same; exact absurd digit (by decide)
    · rw [scanned, Option.map_some]
  | plus numeral =>
    rw [List.cons_append, scanSigned?, scanDigits?_append numeral ends, Option.map_some]
  | minus numeral =>
    rw [List.cons_append, scanSigned?, scanDigits?_append numeral ends, Option.map_some]

theorem scanExponent?_append {exponent : Option (Bool × List Char)}
    (written : IsExponent text exponent) (ends : EndsNumber rest) :
    scanExponent? (text ++ rest) = some (exponent, rest) := by
  cases written with
  | absent =>
    rw [List.nil_append]
    unfold scanExponent?
    split
    · exact absurd rfl (ends _ rfl).2.2.1
    · exact absurd rfl (ends _ rfl).2.2.2
    · rfl
  | marked mark signed =>
    have scanned := scanSigned?_append signed ends.endsDigits
    rcases mark with rfl | rfl <;> rw [List.cons_append, scanExponent?, scanned, Option.map_some]

theorem scanFraction?_append (written : IsFraction text digits) (ends : EndsDigits rest)
    (noPoint : rest.head? ≠ some '.') :
    scanFraction? (text ++ rest) = some (digits, rest) := by
  cases written with
  | absent =>
    rw [List.nil_append]
    unfold scanFraction?
    split
    · exact absurd rfl noPoint
    · rfl
  | point numeral => rw [List.cons_append, scanFraction?, scanDigits?_append numeral ends]

/-- An exponent starts with its mark, and what comes after it ends the digits in front. -/
theorem IsExponent.ends {exponent : Option (Bool × List Char)} (written : IsExponent text exponent)
    (ends : EndsNumber rest) :
    EndsDigits (text ++ rest) ∧ (text ++ rest).head? ≠ some '.' := by
  cases written with
  | absent =>
    exact ⟨ends.endsDigits, fun first => (ends '.' first).2.1 rfl⟩
  | @marked mark _ _ _ isMark signed =>
    have other : mark.isDigit = false ∧ mark ≠ '.' := by
      rcases isMark with rfl | rfl <;> decide
    exact ⟨fun c first => by cases first; exact other.1,
      fun first => other.2 (Option.some.inj first)⟩

theorem IsFraction.ends (written : IsFraction text digits) (ends : EndsDigits rest) :
    EndsDigits (text ++ rest) := by
  cases written with
  | absent => exact ends
  | point numeral =>
    intro c first
    cases first
    rfl

theorem scanUnsigned?_append (negative : Bool) {whole fraction : List Char}
    {exponent : Option (Bool × List Char)} (written : IsUnsigned text whole fraction exponent)
    (ends : EndsNumber rest) :
    scanUnsigned? negative (text ++ rest) = some (⟨negative, whole, fraction, exponent⟩, rest) := by
  obtain ⟨isWhole, isFraction, isExponent⟩ := written
  obtain ⟨endsFraction, noPoint⟩ := isExponent.ends ends
  rw [List.append_assoc, List.append_assoc]
  simp [scanUnsigned?, scanWhole?_append isWhole (isFraction.ends endsFraction),
    scanFraction?_append isFraction endsFraction noPoint, scanExponent?_append isExponent ends]

theorem IsUnsigned.exists_digit {whole fraction : List Char}
    {exponent : Option (Bool × List Char)} (written : IsUnsigned text whole fraction exponent) :
    ∃ c more, text = c :: more ∧ c.isDigit = true := by
  obtain ⟨isWhole, _, _⟩ := written
  obtain ⟨c, more, rfl, digit⟩ := Json.exists_digit isWhole.numeral
  exact ⟨c, _, rfl, digit⟩

/-- A number is scanned up to its last character. -/
theorem scanNumber?_append {literal : Literal} (number : IsNumber text literal)
    (ends : EndsNumber rest) : scanNumber? (text ++ rest) = some (literal, rest) := by
  cases number with
  | unsigned written =>
    obtain ⟨c, more, rfl, digit⟩ := written.exists_digit
    have scanned := scanUnsigned?_append false written ends
    unfold scanNumber?
    split
    · next same => cases same; exact absurd digit (by decide)
    · exact scanned
  | minus written => exact scanUnsigned?_append true written ends

/-! ## The first character -/

/-- A number starts with a digit or a minus sign. -/
def StartsNumber (c : Char) : Prop := c.isDigit = true ∨ c = '-'

theorem StartsNumber.ne {c d : Char} (starts : StartsNumber c) (noDigit : d.isDigit = false)
    (noMinus : d ≠ '-') : c ≠ d := by
  rintro rfl
  rcases starts with digit | minus
  · rw [noDigit] at digit
    cases digit
  · exact noMinus minus

theorem StartsNumber.not_isLayout {c : Char} (starts : StartsNumber c) : isLayout c = false := by
  simp [isLayout, starts.ne]

theorem IsNumber.exists_cons {literal : Literal} (number : IsNumber text literal) :
    ∃ c more, text = c :: more ∧ StartsNumber c := by
  cases number with
  | unsigned written =>
    obtain ⟨c, more, same, digit⟩ := written.exists_digit
    exact ⟨c, more, same, .inl digit⟩
  | minus written => exact ⟨'-', _, rfl, .inr rfl⟩

/-! ## Written integers -/

/-- The numeral of a number other than zero does not start with a zero. -/
theorem exists_writeNatural_cons {n : Nat} (positive : n ≠ 0) :
    ∃ c rest, writeNatural n = c :: rest ∧ c ≠ '0' := by
  induction n using Nat.strongRecOn with
  | ind n ih =>
    unfold writeNatural
    by_cases short : n < 10
    · rw [Nat.toDigits_of_lt_base short]
      refine ⟨_, _, rfl, ?_⟩
      have every : ∀ d < 10, d ≠ 0 → Nat.digitChar d ≠ '0' := by decide
      exact every n short positive
    · obtain ⟨c, rest, written, nonzero⟩ := ih (n / 10) (by omega) (by omega)
      rw [Nat.toDigits_of_base_le (by decide) (by omega)]
      exact ⟨c, _, congrArg (· ++ _) written, nonzero⟩

theorem isWhole_writeNatural (n : Nat) : IsWhole (writeNatural n) where
  numeral := Number.isNumeral_writeNatural n
  lead first := by
    by_cases zero : n = 0
    · rw [zero]
      rfl
    · obtain ⟨c, digits, written, nonzero⟩ := exists_writeNatural_cons zero
      rw [written] at first
      exact absurd (Option.some.inj first) nonzero

/-- An integer is written as a number. -/
theorem isNumber_writeSigned (n : Int) :
    IsNumber (writeSigned n) ⟨decide (n < 0), writeNatural n.natAbs, [], none⟩ := by
  have unsigned : IsUnsigned (writeNatural n.natAbs) (writeNatural n.natAbs) [] none := by
    have parts := IsUnsigned.parts (isWhole_writeNatural n.natAbs) .absent .absent
    rwa [List.append_nil, List.append_nil] at parts
  unfold writeSigned
  split
  · next negative =>
    rw [decide_eq_true negative]
    exact .minus unsigned
  · next positive =>
    rw [decide_eq_false positive]
    exact .unsigned unsigned

end RuleNet.Json
