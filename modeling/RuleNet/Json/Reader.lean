import RuleNet.Json.Numeral
import RuleNet.Json.Quoted
import RuleNet.Text.Blank

/-!
# Reading JSON

Strict JSON: white space is layout, nothing may follow the last element of an
array or the last member of an object but the closing bracket. Arrays and
objects nest at most as deep as a given bound.

A value whose content is of no interest can be skipped (`skipValue`). Skipping
checks the grammar only: there is no bound on the nesting, numbers may be too
large and escapes may denote no character.

Every reader returns what follows the part it has read. The `fuel` of the
recursive ones bounds the number of steps; two steps for every character are
enough (`fuelFor`).
-/

namespace RuleNet.Json

open Text (isLayout)

/-- Steps enough for reading a text. -/
def fuelFor (text : List Char) : Nat := 2 * text.length + 2

/-- The text after an expected character, layout before it not counting. -/
def expect? (expected : Char) (text : List Char) : Option (List Char) :=
  match text.dropWhile isLayout with
  | [] => none
  | c :: rest => if c = expected then some rest else none

/-- A number's value and what follows it. -/
def readNumber (text : List Char) : Option (Value × List Char) := do
  let (literal, rest) ← scanNumber? text
  let n ← literal.value?
  return (.number n, rest)

/-- The key of a member, up to and with the colon. -/
def readKey (text : List Char) : Option (String × List Char) := do
  let rest ← expect? '"' text
  let (key, rest) ← readString rest
  let rest ← expect? ':' rest
  return (String.ofList key, rest)

/-! ## Values -/

mutual
/-- A value nesting at most `depth` arrays and objects. -/
def readValue : Nat → Nat → List Char → Option (Value × List Char)
  | 0, _, _ => none
  | fuel + 1, depth, text =>
      match text.dropWhile isLayout with
      | 'n' :: 'u' :: 'l' :: 'l' :: rest => some (.null, rest)
      | 't' :: 'r' :: 'u' :: 'e' :: rest => some (.bool true, rest)
      | 'f' :: 'a' :: 'l' :: 's' :: 'e' :: rest => some (.bool false, rest)
      | '"' :: rest => (readString rest).map fun (s, rest) => (.string (String.ofList s), rest)
      | '[' :: rest =>
          if depth = 0 then none
          else match expect? ']' rest with
            | some rest => some (.array [], rest)
            | none =>
                (readItems fuel (depth - 1) rest).map fun (items, rest) => (.array items, rest)
      | '\x7b' :: rest =>
          if depth = 0 then none
          else match expect? '\x7d' rest with
            | some rest => some (.object [], rest)
            | none =>
                (readMembers fuel (depth - 1) rest).map fun (members, rest) =>
                  (.object members, rest)
      | rest => readNumber rest

/-- The elements of an array that is not empty, up to and with its closing bracket. -/
def readItems : Nat → Nat → List Char → Option (List Value × List Char)
  | 0, _, _ => none
  | fuel + 1, depth, text =>
      match readValue fuel depth text with
      | none => none
      | some (item, rest) =>
          match expect? ',' rest with
          | some rest => (readItems fuel depth rest).map fun (items, rest) => (item :: items, rest)
          | none => (expect? ']' rest).map fun rest => ([item], rest)

/-- The members of an object that is not empty, up to and with its closing bracket. -/
def readMembers : Nat → Nat → List Char → Option (List (String × Value) × List Char)
  | 0, _, _ => none
  | fuel + 1, depth, text =>
      match readKey text with
      | none => none
      | some (key, rest) =>
          match readValue fuel depth rest with
          | none => none
          | some (value, rest) =>
              match expect? ',' rest with
              | some rest =>
                  (readMembers fuel depth rest).map fun (members, rest) =>
                    ((key, value) :: members, rest)
              | none => (expect? '\x7d' rest).map fun rest => ([(key, value)], rest)
end

/-! ## Skipping -/

/-- What follows the key of a member, up to and with the colon, unread. -/
def skipKey (text : List Char) : Option (List Char) := do
  let rest ← expect? '"' text
  let rest ← skipString rest
  expect? ':' rest

mutual
/-- What follows a value that is not read. -/
def skipValue : Nat → List Char → Option (List Char)
  | 0, _ => none
  | fuel + 1, text =>
      match text.dropWhile isLayout with
      | 'n' :: 'u' :: 'l' :: 'l' :: rest => some rest
      | 't' :: 'r' :: 'u' :: 'e' :: rest => some rest
      | 'f' :: 'a' :: 'l' :: 's' :: 'e' :: rest => some rest
      | '"' :: rest => skipString rest
      | '[' :: rest =>
          match expect? ']' rest with
          | some rest => some rest
          | none => skipItems fuel rest
      | '\x7b' :: rest =>
          match expect? '\x7d' rest with
          | some rest => some rest
          | none => skipMembers fuel rest
      | rest => (scanNumber? rest).map Prod.snd

/-- What follows the elements of an array that is not empty. -/
def skipItems : Nat → List Char → Option (List Char)
  | 0, _ => none
  | fuel + 1, text =>
      match skipValue fuel text with
      | none => none
      | some rest =>
          match expect? ',' rest with
          | some rest => skipItems fuel rest
          | none => expect? ']' rest

/-- What follows the members of an object that is not empty. -/
def skipMembers : Nat → List Char → Option (List Char)
  | 0, _ => none
  | fuel + 1, text =>
      match (skipKey text).bind (skipValue fuel) with
      | none => none
      | some rest =>
          match expect? ',' rest with
          | some rest => skipMembers fuel rest
          | none => expect? '\x7d' rest
end

end RuleNet.Json
