import RuleNet.Text.Utf8
import RuleNet.Toml.Moment
import RuleNet.Toml.Numeral
import RuleNet.Toml.Text
import RuleNet.Toml.Value

/-!
# Reading TOML

A document is read as a list of statements, one a line, from which its table
is assembled (`read`). A line feed ends a line, with or without a carriage
return before it. Arrays and braces nest less than eighty deep, and a key has
fewer than eighty parts.
-/

namespace RuleNet.Toml

/-- How deep arrays and braces nest, and how many parts a key has, at most. -/
def nestingLimit : Nat := 79

/-! ## Between the values -/

/-- The text after spaces and tabs. -/
def skipSpace (text : List Char) : List Char := text.dropWhile isSpace

/-- The text after a comment, if it starts with one. -/
def skipComment : List Char → List Char
  | '#' :: rest => rest.dropWhile isPlain
  | text => text

/-- The text after the end of a line, which may have a comment. -/
def endLine? (text : List Char) : Option (List Char) :=
  match skipComment (skipSpace text) with
  | [] => some []
  | '\n' :: rest => some rest
  | _ => none

/-- The text after white space, ends of lines and comments; `true` stands for
being inside a comment. -/
def skipLayout : Bool → List Char → List Char
  | _, [] => []
  | true, c :: rest =>
      if c == '\n' then skipLayout false rest
      else if isPlain c then skipLayout true rest
      else c :: rest
  | false, c :: rest =>
      if c == '#' then skipLayout true rest
      else if isSpace c || c == '\n' then skipLayout false rest
      else c :: rest

/-- The text with every carriage return dropped that stands before a line feed. -/
def unifyLines : List Char → List Char
  | [] => []
  | '\r' :: '\n' :: rest => '\n' :: unifyLines rest
  | c :: rest => c :: unifyLines rest

/-! ## Keys -/

/-- A character of a key without quotes. -/
def isBare (c : Char) : Bool := c.isAlphanum || c == '-' || c == '_'

/-- One part of a key. -/
def readKeyPart? : List Char → Option (List Char × List Char)
  | '"' :: rest => readQuoted rest
  | '\'' :: rest => readLiteral rest
  | text =>
      let part := text.takeWhile isBare
      if part.isEmpty then none else some (part, text.dropWhile isBare)

/-- A key of at most so many parts, with white space around each. -/
def readKeyParts? : Nat → List Char → Option (List String × List Char)
  | 0, _ => none
  | limit + 1, text => do
      let (part, rest) ← readKeyPart? (skipSpace text)
      match skipSpace rest with
      | '.' :: rest =>
          let (parts, rest) ← readKeyParts? limit rest
          return (String.ofList part :: parts, rest)
      | rest => return ([String.ofList part], rest)

/-- A key. -/
def readKey? (text : List Char) : Option (KeyPath × List Char) := do
  let (parts, rest) ← readKeyParts? nestingLimit text
  let path ← KeyPath.ofList? parts
  return (path, rest)

/-! ## Values -/

/-- A string and what follows it, as a value. -/
def stringValue (read : List Char × List Char) : Value × List Char :=
  (.string (String.ofList read.1), read.2)

/-- A number as a value. -/
def Numeral.toValue : Numeral → Value
  | integer n => .integer n
  | float x => .float x

/-- A value that holds no others. -/
def readScalar? : List Char → Option (Value × List Char)
  | '"' :: '"' :: '"' :: rest => (readQuotedBlock false (dropLineFeed rest)).map stringValue
  | '"' :: rest => (readQuoted rest).map stringValue
  | '\'' :: '\'' :: '\'' :: rest => (readLiteralBlock (dropLineFeed rest)).map stringValue
  | '\'' :: rest => (readLiteral rest).map stringValue
  | 't' :: 'r' :: 'u' :: 'e' :: rest => some (.boolean true, rest)
  | 'f' :: 'a' :: 'l' :: 's' :: 'e' :: rest => some (.boolean false, rest)
  | text =>
      match scanMoment? text with
      | some rest =>
          some (.moment (String.ofList (text.take (text.length - rest.length))), rest)
      | none => (readNumeral? text).map fun (n, rest) => (n.toValue, rest)

/-- The rest of an array after its bracket. A comma may follow the last item.
There are fewer items than characters. -/
def readItems? (readItem : List Char → Option (Value × List Char)) :
    Nat → List Char → Option (List Value × List Char)
  | 0, _ => none
  | fuel + 1, text =>
      match skipLayout false text with
      | ']' :: rest => some ([], rest)
      | text => do
          let (item, rest) ← readItem text
          match skipLayout false rest with
          | ',' :: rest =>
              let (items, rest) ← readItems? readItem fuel rest
              return (item :: items, rest)
          | ']' :: rest => return ([item], rest)
          | _ => none

/-- A key, an equals sign and a value. -/
def readPair? (readItem : List Char → Option (Value × List Char)) (text : List Char) :
    Option ((KeyPath × Value) × List Char) := do
  let (path, rest) ← readKey? text
  match rest with
  | '=' :: rest =>
      let (value, rest) ← readItem (skipSpace rest)
      return ((path, value), rest)
  | _ => none

/-- Pairs separated by commas up to the closing brace. There are fewer pairs
than characters. -/
def readPairs? (readItem : List Char → Option (Value × List Char)) :
    Nat → List Char → Option (List (KeyPath × Value) × List Char)
  | 0, _ => none
  | fuel + 1, text => do
      let (pair, rest) ← readPair? readItem text
      match skipSpace rest with
      | ',' :: rest =>
          let (pairs, rest) ← readPairs? readItem fuel rest
          return (pair :: pairs, rest)
      | '\x7d' :: rest => return ([pair], rest)
      | _ => none

/-- The rest of a table in braces after the opening one. -/
def readBraces? (readItem : List Char → Option (Value × List Char)) (text : List Char) :
    Option (Value × List Char) :=
  match skipSpace text with
  | '\x7d' :: rest => some (.table .braces [], rest)
  | text => do
      let (pairs, rest) ← readPairs? readItem text.length text
      let value ← ofPairs pairs
      return (value, rest)

/-- A value with so many levels of arrays and braces at most. -/
def readValue? : Nat → List Char → Option (Value × List Char)
  | 0, text => readScalar? text
  | depth + 1, '[' :: rest =>
      (readItems? (readValue? depth) (rest.length + 1) rest).map fun (items, rest) =>
        (.array items, rest)
  | depth + 1, '\x7b' :: rest => readBraces? (readValue? depth) rest
  | _ + 1, text => readScalar? text

/-! ## Documents -/

/-- A statement with the end of its line. -/
def readStatement? : List Char → Option (Statement × List Char)
  | '[' :: '[' :: rest => do
      let (path, rest) ← readKey? rest
      match rest with
      | ']' :: ']' :: rest => return (.element path, ← endLine? rest)
      | _ => none
  | '[' :: rest => do
      let (path, rest) ← readKey? rest
      match rest with
      | ']' :: rest => return (.header path, ← endLine? rest)
      | _ => none
  | text => do
      let ((path, value), rest) ← readPair? (readValue? nestingLimit) text
      return (.pair path value, ← endLine? rest)

/-- All statements of a text. There are no more of them than characters. -/
def readStatements? : Nat → List Char → Option (List Statement)
  | fuel, text =>
      match skipLayout false text, fuel with
      | [], _ => some []
      | _ :: _, 0 => none
      | c :: rest, fuel + 1 => do
          let (statement, rest) ← readStatement? (c :: rest)
          let statements ← readStatements? fuel rest
          return statement :: statements

/-- The table of a document. A byte order mark in front is ignored. -/
def read (text : String) : Option Members := do
  let text := unifyLines (Text.dropByteOrderMark text.toList)
  assemble (← readStatements? text.length text)

end RuleNet.Toml
