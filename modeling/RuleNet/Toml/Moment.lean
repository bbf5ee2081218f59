import RuleNet.Number.Integer

/-!
# TOML dates and times

A moment is a date, a time of day, or both, and then possibly an offset from
universal time. Only the form and the ranges are checked.
-/

namespace RuleNet.Toml

/-- A number of exactly `width` digits. -/
def scanFixed? (width : Nat) (text : List Char) : Option (Nat × List Char) :=
  if (text.take width).length = width ∧ (text.take width).all Char.isDigit then
    some (Number.naturalOf (text.take width), text.drop width)
  else none

/-- A number of two digits in the given range. -/
def scanTwo? (low high : Nat) (text : List Char) : Option (Nat × List Char) :=
  (scanFixed? 2 text).filter fun (n, _) => decide (low ≤ n ∧ n ≤ high)

/-- The given character. -/
def scanChar? (c : Char) : List Char → Option (List Char)
  | [] => none
  | d :: rest => if d = c then some rest else none

/-- The number of days in a month of the Gregorian calendar. -/
def daysIn (year month : Nat) : Nat :=
  if month = 2 then
    if year % 4 = 0 ∧ (year % 100 ≠ 0 ∨ year % 400 = 0) then 29 else 28
  else if month = 4 ∨ month = 6 ∨ month = 9 ∨ month = 11 then 30
  else 31

/-- What follows a date. -/
def scanDate? (text : List Char) : Option (List Char) := do
  let (year, rest) ← scanFixed? 4 text
  let rest ← scanChar? '-' rest
  let (month, rest) ← scanTwo? 1 12 rest
  let rest ← scanChar? '-' rest
  let (_, rest) ← scanTwo? 1 (daysIn year month) rest
  return rest

/-- What follows the decimals of a second; at least one after a point. -/
def scanDecimals? : List Char → Option (List Char)
  | '.' :: c :: rest => if c.isDigit then some (rest.dropWhile Char.isDigit) else none
  | '.' :: [] => none
  | text => some text

/-- What follows a time of day. A minute may have a leap second. -/
def scanTime? (text : List Char) : Option (List Char) := do
  let (_, rest) ← scanTwo? 0 23 text
  let rest ← scanChar? ':' rest
  let (_, rest) ← scanTwo? 0 59 rest
  let rest ← scanChar? ':' rest
  let (_, rest) ← scanTwo? 0 60 rest
  scanDecimals? rest

/-- What follows the hours and minutes of an offset. -/
def scanOffsetTime? (text : List Char) : Option (List Char) := do
  let (_, rest) ← scanTwo? 0 23 text
  let rest ← scanChar? ':' rest
  let (_, rest) ← scanTwo? 0 59 rest
  return rest

/-- What follows an offset from universal time, which may be missing. -/
def scanOffset? : List Char → Option (List Char)
  | 'Z' :: rest => some rest
  | 'z' :: rest => some rest
  | '+' :: rest => scanOffsetTime? rest
  | '-' :: rest => scanOffsetTime? rest
  | text => some text

/-- What follows a time of day that belongs to a date. A `T` or a space joins
the two; without a time after it, it does not belong to the moment. -/
def scanTimeOfDate? : List Char → Option (List Char)
  | c :: rest =>
      if c == 'T' || c == 't' || c == ' ' then
        match scanTime? rest with
        | some rest => scanOffset? rest
        | none => some (c :: rest)
      else some (c :: rest)
  | [] => some []

/-- What follows a moment at the start of the text. -/
def scanMoment? (text : List Char) : Option (List Char) :=
  match scanDate? text with
  | some rest => scanTimeOfDate? rest
  | none => scanTime? text

end RuleNet.Toml
