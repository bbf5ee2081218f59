/-!
# Integers: digits, decimal numerals and the signed 64-bit range

A decimal numeral is an optional sign and at least one ASCII digit. Reading
never wraps: a number outside the signed 64-bit range is refused.
`readSigned?_writeSigned` says that every written integer reads back.
-/

namespace RuleNet.Number

/-! ## Digits -/

/-- The value of a digit in the given radix (at most 16), letters in either case. -/
def digit? (radix : Nat) (c : Char) : Option Nat :=
  let value :=
    if c.isDigit then c.toNat - '0'.toNat
    else if 'a' ≤ c ∧ c ≤ 'f' then c.toNat - 'a'.toNat + 10
    else if 'A' ≤ c ∧ c ≤ 'F' then c.toNat - 'A'.toNat + 10
    else radix
  if value < radix then some value else none

/-- At least one character, and only ASCII digits. -/
def isNumeral (text : List Char) : Bool :=
  !text.isEmpty && text.all Char.isDigit

/-- The number that a run of decimal digits denotes; no digits denote zero. -/
def naturalOf (digits : List Char) : Nat :=
  Nat.ofDigitChars 10 digits 0

/-- The decimal digits of a natural number, without leading zeros. -/
def writeNatural (n : Nat) : List Char :=
  Nat.toDigits 10 n

theorem isNumeral_writeNatural (n : Nat) : isNumeral (writeNatural n) = true := by
  simp only [isNumeral, writeNatural, Bool.and_eq_true, Bool.not_eq_true',
    List.isEmpty_eq_false_iff, List.all_eq_true]
  exact ⟨Nat.toDigits_ne_nil, fun _ h => Nat.isDigit_of_mem_toDigits (by decide) (by decide) h⟩

@[simp] theorem naturalOf_writeNatural (n : Nat) : naturalOf (writeNatural n) = n :=
  Nat.ofDigitChars_ten_toDigits

/-- The hexadecimal digits of a number, with zeros in front up to the given width. -/
def writeHex (width n : Nat) : List Char :=
  let digits := Nat.toDigits 16 n
  List.replicate (width - digits.length) '0' ++ digits

/-! ## Signed numerals -/

/-- An unsigned numeral's value. -/
def readNatural? (text : List Char) : Option Nat :=
  if isNumeral text then some (naturalOf text) else none

/-- The value of a numeral with an optional sign. -/
def readSigned? : List Char → Option Int
  | '+' :: digits => (readNatural? digits).map fun n : Nat => (n : Int)
  | '-' :: digits => (readNatural? digits).map fun n : Nat => -(n : Int)
  | digits => (readNatural? digits).map fun n : Nat => (n : Int)

/-- The decimal numeral of an integer: a sign only when it is negative. -/
def writeSigned (n : Int) : List Char :=
  if n < 0 then '-' :: writeNatural n.natAbs else writeNatural n.natAbs

@[simp] theorem readNatural?_writeNatural (n : Nat) : readNatural? (writeNatural n) = some n := by
  simp [readNatural?, isNumeral_writeNatural]

/-- A text of digits starts with neither sign. -/
theorem readSigned?_of_isNumeral {text : List Char} (h : isNumeral text = true) :
    readSigned? text = some (naturalOf text : Int) := by
  unfold readSigned?
  split
  · simp [isNumeral] at h
  · simp [isNumeral] at h
  · simp [readNatural?, h]

@[simp] theorem readSigned?_writeSigned (n : Int) : readSigned? (writeSigned n) = some n := by
  unfold writeSigned
  split
  · show Option.map (fun m : Nat => -(m : Int)) (readNatural? (writeNatural n.natAbs)) = some n
    rw [readNatural?_writeNatural, Option.map_some]
    exact congrArg some (by omega)
  · rw [readSigned?_of_isNumeral (isNumeral_writeNatural _), naturalOf_writeNatural]
    exact congrArg some (by omega)

/-! ## The signed 64-bit range -/

/-- The integer as a signed 64-bit word, when it fits. -/
def toInt64? (n : Int) : Option Int64 :=
  if -0x8000000000000000 ≤ n ∧ n < 0x8000000000000000 then some (Int64.ofInt n) else none

/-- The value of a signed numeral within the signed 64-bit range. -/
def readInt64? (text : List Char) : Option Int64 :=
  (readSigned? text).bind toInt64?

@[simp] theorem toInt64?_toInt (n : Int64) : toInt64? n.toInt = some n := by
  have lower := Int64.le_toInt n
  have upper := Int64.toInt_lt n
  unfold toInt64?
  rw [if_pos (by omega), Int64.ofInt_toInt]

/-- A word that an integer fits into denotes that integer. -/
theorem toInt_of_toInt64? {n : Int} {word : Int64} (h : toInt64? n = some word) :
    word.toInt = n := by
  unfold toInt64? at h
  split at h
  · next range =>
    cases h
    exact Int64.toInt_ofInt_of_le (by omega) (by omega)
  · exact absurd h (by simp)

end RuleNet.Number
