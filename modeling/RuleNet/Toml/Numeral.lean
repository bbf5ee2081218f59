import RuleNet.Number.Decimal

/-!
# TOML numbers

Between the digits of a number single underscores may stand. Integers are
decimal with an optional sign, or hexadecimal, octal or binary without one,
and fit into 64 bits; a decimal number has no leading zeros. A number with a
fraction or an exponent is a floating-point number and does not exceed the
largest finite one; `inf` and `nan` are floating-point numbers too.
-/

namespace RuleNet.Toml

open Number (Binary64 Scientific)

/-- A number. -/
inductive Numeral where
  | integer (n : Int64)
  | float (x : Binary64)
deriving DecidableEq, Repr

/-! ## Digits -/

/-- Digits, with single underscores between them. -/
def isGrouped : List Char → Bool
  | [] => false
  | [c] => c != '_'
  | c :: '_' :: rest => c != '_' && isGrouped rest
  | c :: rest => c != '_' && isGrouped rest

/-- The digits at the start of the text without their underscores, at least one. -/
def scanDigits? (isDigit : Char → Bool) (text : List Char) : Option (List Char × List Char) :=
  let run := text.takeWhile fun c => isDigit c || c == '_'
  if isGrouped run then some (run.filter (· != '_'), text.drop run.length) else none

/-- Decimal digits without a leading zero, at least one. -/
def scanWhole? (text : List Char) : Option (List Char × List Char) :=
  match scanDigits? Char.isDigit text with
  | some ('0' :: _ :: _, _) => none
  | scanned => scanned

/-- An optional sign, true for minus. -/
def scanSign : List Char → Bool × List Char
  | '+' :: rest => (false, rest)
  | '-' :: rest => (true, rest)
  | text => (false, text)

/-! ## Integers -/

/-- An integer after the mark of its radix. -/
def readRadix? (radix : Nat) (text : List Char) : Option (Numeral × List Char) := do
  let (digits, rest) ← scanDigits? (fun c => (Number.digit? radix c).isSome) text
  let values ← digits.mapM (Number.digit? radix)
  let n ← Number.toInt64? (values.foldl (fun n digit => n * radix + digit) 0 : Nat)
  return (.integer n, rest)

/-! ## Floating-point numbers -/

/-- A fraction, or nothing. -/
def scanFraction? : List Char → Option (Option (List Char) × List Char)
  | '.' :: rest => (scanDigits? Char.isDigit rest).map fun (digits, rest) => (some digits, rest)
  | text => some (none, text)

/-- The value of an exponent after its letter. -/
def scanPower? (text : List Char) : Option (Int × List Char) :=
  let (negative, text) := scanSign text
  (scanDigits? Char.isDigit text).map fun (digits, rest) =>
    let n := Number.naturalOf digits
    (if negative then -(n : Int) else n, rest)

/-- An exponent, or nothing. -/
def scanExponent? : List Char → Option (Option Int × List Char)
  | 'e' :: rest => (scanPower? rest).map fun (power, rest) => (some power, rest)
  | 'E' :: rest => (scanPower? rest).map fun (power, rest) => (some power, rest)
  | text => some (none, text)

/-- The value of a decimal number. A positive number that is too large has none. -/
def decimal? (negative : Bool) (whole : List Char) (fraction : Option (List Char))
    (exponent : Option Int) : Option Numeral :=
  match fraction, exponent with
  | none, none =>
      let n : Int := Number.naturalOf whole
      (Number.toInt64? (if negative then -n else n)).map .integer
  | _, _ =>
      let decimals := fraction.getD []
      let number : Scientific := ⟨whole ++ decimals, exponent.getD 0 - decimals.length⟩
      let value := Binary64.ofMagnitude negative number.toMagnitude
      if value = Binary64.infinity false then none else some (.float value)

/-! ## Numbers -/

/-- A decimal number, an infinity or a NaN after its sign. -/
def readUnsigned? (negative : Bool) : List Char → Option (Numeral × List Char)
  | 'i' :: 'n' :: 'f' :: rest => some (.float (Binary64.infinity negative), rest)
  | 'n' :: 'a' :: 'n' :: rest => some (.float (Binary64.nan negative), rest)
  | text => do
      let (whole, rest) ← scanWhole? text
      let (fraction, rest) ← scanFraction? rest
      let (exponent, rest) ← scanExponent? rest
      let value ← decimal? negative whole fraction exponent
      return (value, rest)

/-- A number at the start of the text, and what follows it. -/
def readNumeral? : List Char → Option (Numeral × List Char)
  | '0' :: 'x' :: rest => readRadix? 16 rest
  | '0' :: 'o' :: rest => readRadix? 8 rest
  | '0' :: 'b' :: rest => readRadix? 2 rest
  | text =>
      let (negative, rest) := scanSign text
      readUnsigned? negative rest

end RuleNet.Toml
