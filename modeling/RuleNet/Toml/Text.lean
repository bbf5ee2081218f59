import RuleNet.Number.Integer

/-!
# TOML strings

A string stands between quotes, where escapes are known, or between
apostrophes, where every character stands for itself. Three quotes or
apostrophes enclose a text of several lines; a line feed right after the
opening is dropped, and in quotes a backslash at the end of a line joins the
line with the next visible character.

The readers get the text after the opening and return what follows the
closing. Lines end with a line feed here.
-/

namespace RuleNet.Toml

/-- Space or tab. -/
def isSpace (c : Char) : Bool := c == ' ' || c == '\t'

/-- A character that may stand in a comment or a string: no control character but the tab. -/
def isPlain (c : Char) : Bool := c == '\t' || (decide (0x20 ≤ c.toNat) && c.toNat != 0x7F)

/-! ## Escapes -/

/-- The character of an escape of one letter. -/
def simpleEscape? : Char → Option Char
  | '"' => some '"'
  | '\\' => some '\\'
  | 'b' => some (Char.ofNat 0x8)
  | 'f' => some (Char.ofNat 0xC)
  | 'n' => some '\n'
  | 'r' => some '\r'
  | 't' => some '\t'
  | _ => none

/-- The character with the given hexadecimal number, if there is one. -/
def codePoint? (digits : List Char) : Option Char := do
  let values ← digits.mapM (Number.digit? 16)
  let code := values.foldl (fun n digit => n * 16 + digit) 0
  if code.isValidChar then some (Char.ofNat code) else none

/-- A character put in front of a string that was read. -/
def consRead (c : Char) (read : List Char × List Char) : List Char × List Char :=
  (c :: read.1, read.2)

/-! ## One line -/

/-- A string in quotes. -/
def readQuoted : List Char → Option (List Char × List Char)
  | [] => none
  | '"' :: rest => some ([], rest)
  | '\\' :: 'u' :: a :: b :: c :: d :: rest => do
      let char ← codePoint? [a, b, c, d]
      return consRead char (← readQuoted rest)
  | '\\' :: 'U' :: a :: b :: c :: d :: e :: f :: g :: h :: rest => do
      let char ← codePoint? [a, b, c, d, e, f, g, h]
      return consRead char (← readQuoted rest)
  | '\\' :: letter :: rest => do
      let char ← simpleEscape? letter
      return consRead char (← readQuoted rest)
  | c :: rest => if isPlain c && c != '\\' then (readQuoted rest).map (consRead c) else none

/-- A string in apostrophes. -/
def readLiteral : List Char → Option (List Char × List Char)
  | [] => none
  | c :: rest =>
      if c == '\'' then some ([], rest)
      else if isPlain c then (readLiteral rest).map (consRead c)
      else none

/-! ## Several lines -/

/-- The text without a line feed at its start. -/
def dropLineFeed : List Char → List Char
  | '\n' :: rest => rest
  | text => text

/-- The end of a text of several lines after its first three quotes: up to two
quotes more belong to the text. -/
def closing (quote : Char) (rest : List Char) : List Char × List Char :=
  let extra := (rest.takeWhile (· == quote)).take 2
  (extra, rest.drop extra.length)

/-- There is nothing visible before the end of the line. -/
def endsLine (text : List Char) : Bool :=
  (text.dropWhile isSpace).head? == some '\n'

/-- A text of several lines in quotes. While lines are being joined, white
space is dropped. -/
def readQuotedBlock : Bool → List Char → Option (List Char × List Char)
  | _, [] => none
  | _, '"' :: '"' :: '"' :: rest => some (closing '"' rest)
  | _, '\\' :: 'u' :: a :: b :: c :: d :: rest => do
      let char ← codePoint? [a, b, c, d]
      return consRead char (← readQuotedBlock false rest)
  | _, '\\' :: 'U' :: a :: b :: c :: d :: e :: f :: g :: h :: rest => do
      let char ← codePoint? [a, b, c, d, e, f, g, h]
      return consRead char (← readQuotedBlock false rest)
  | _, '\\' :: letter :: rest =>
      match simpleEscape? letter with
      | some char => (readQuotedBlock false rest).map (consRead char)
      | none => if endsLine (letter :: rest) then readQuotedBlock true (letter :: rest) else none
  | joining, c :: rest =>
      if joining && (isSpace c || c == '\n') then readQuotedBlock true rest
      else if (isPlain c && c != '\\') || c == '\n' then
        (readQuotedBlock false rest).map (consRead c)
      else none

/-- A text of several lines in apostrophes. -/
def readLiteralBlock : List Char → Option (List Char × List Char)
  | '\'' :: '\'' :: '\'' :: rest => some (closing '\'' rest)
  | [] => none
  | c :: rest => if isPlain c || c == '\n' then (readLiteralBlock rest).map (consRead c) else none

end RuleNet.Toml
