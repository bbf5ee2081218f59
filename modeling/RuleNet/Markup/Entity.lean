import RuleNet.Number.Integer
import RuleNet.Text.Utf8

/-!
# Entities

In markup the characters `<`, `>`, `&`, `'` and `"` are written as named
entities. Reading also knows character references, `&#65;` or `&#x41;`, and
refuses every other use of `&`. `unescape_escape` says that what was escaped
reads back.

The ranges in the errors count bytes of the text that is unescaped.
-/

namespace RuleNet.Markup

/-! ## Errors -/

/-- Why a character reference denotes no character. -/
inductive ReferenceError where
  /-- The number starts with a sign. -/
  | sign
  /-- There is no number. -/
  | empty
  /-- A character is no digit of the radix. -/
  | digit
  /-- The number does not fit into 32 bits. -/
  | tooLarge
  /-- The number is zero. -/
  | zero
  /-- The number is no Unicode scalar value. -/
  | notScalar (code : Nat)
deriving DecidableEq, Repr

/-- Why a text cannot be unescaped. -/
inductive EntityError where
  /-- An entity has no end; the range runs from its `&` to the end of the text. -/
  | unterminated (start stop : Nat)
  /-- The name in the given range is not a known entity. -/
  | unknown (start stop : Nat) (name : String)
  /-- A character reference denotes no character. -/
  | reference (why : ReferenceError)
deriving DecidableEq, Repr

/-- The complaint about a character reference. -/
def ReferenceError.message : ReferenceError → String
  | sign => "unexpected number sign"
  | empty => "cannot parse integer from empty string"
  | digit => "invalid digit found in string"
  | tooLarge => "number too large to fit in target type"
  | zero => "0x0 character is not permitted in XML"
  | notScalar code => "`" ++ toString code ++ "` is not a valid codepoint"

/-- The complaint about an entity. -/
def EntityError.message : EntityError → String
  | unterminated start stop =>
      "Error while escaping character at range " ++ toString start ++ ".." ++ toString stop ++
        ": Cannot find ';' after '&'"
  | unknown start stop name =>
      "at " ++ toString start ++ ".." ++ toString stop ++ ": unrecognized entity `" ++ name ++ "`"
  | reference why => "invalid character reference: " ++ why.message

/-! ## Escaping -/

/-- The written form of one character. -/
def escapeChar : Char → List Char
  | '<' => "&lt;".toList
  | '>' => "&gt;".toList
  | '&' => "&amp;".toList
  | '\'' => "&apos;".toList
  | '"' => "&quot;".toList
  | c => [c]

/-- The written form of a text. -/
def escape (text : List Char) : List Char :=
  text.flatMap escapeChar

/-! ## Unescaping -/

/-- The number of a character reference, digit by digit. -/
def referenceNumber (radix : Nat) : Nat → List Char → Except ReferenceError Nat
  | n, [] => .ok n
  | n, c :: rest =>
      match Number.digit? radix c with
      | none => .error .digit
      | some d =>
          if n * radix + d < 2 ^ 32 then referenceNumber radix (n * radix + d) rest
          else .error .tooLarge

/-- The number of a character reference; a sign is refused first. -/
def readReference (radix : Nat) : List Char → Except ReferenceError Nat
  | [] => .error .empty
  | c :: rest => if c == '+' || c == '-' then .error .sign else referenceNumber radix 0 (c :: rest)

/-- The character with the given number. -/
def scalar (code : Nat) : Except ReferenceError Char :=
  if code = 0 then .error .zero
  else if code.isValidChar then .ok (Char.ofNat code)
  else .error (.notScalar code)

/-- The character that an entity stands for, given what is between `&` and `;`.
`start` is the place of the name. -/
def decodeEntity (start : Nat) : List Char → Except EntityError Char
  | '#' :: 'x' :: digits => ((readReference 16 digits).bind scalar).mapError .reference
  | '#' :: digits => ((readReference 10 digits).bind scalar).mapError .reference
  | name =>
      if name = "lt".toList then .ok '<'
      else if name = "gt".toList then .ok '>'
      else if name = "amp".toList then .ok '&'
      else if name = "apos".toList then .ok '\''
      else if name = "quot".toList then .ok '"'
      else .error (.unknown start (start + Text.byteLength name) (String.ofList name))

/-- Unescaping from the byte `position` on, in a text of `total` bytes. Inside
an entity, `entity` holds the place of its `&` and what followed, last
character first. -/
def unescapeFrom (total : Nat) :
    Option (Nat × List Char) → Nat → List Char → Except EntityError (List Char)
  | none, _, [] => .ok []
  | some (start, _), _, [] => .error (.unterminated start total)
  | none, position, c :: rest =>
      if c = '&' then unescapeFrom total (some (position, [])) (position + 1) rest
      else (unescapeFrom total none (position + c.utf8Size) rest).map (c :: ·)
  | some (start, name), position, c :: rest =>
      if c = '&' then .error (.unterminated start total)
      else if c = ';' then
        (decodeEntity (start + 1) name.reverse).bind fun decoded =>
          (unescapeFrom total none (position + 1) rest).map (decoded :: ·)
      else unescapeFrom total (some (start, c :: name)) (position + c.utf8Size) rest

/-- The text that a written text stands for. -/
def unescape (text : List Char) : Except EntityError (List Char) :=
  unescapeFrom (Text.byteLength text) none 0 text

/-! ## What is escaped reads back -/

/-- The written form of one character is read as that character. -/
theorem unescapeFrom_escapeChar (total position : Nat) (c : Char) (rest : List Char) :
    unescapeFrom total none position (escapeChar c ++ rest) =
      (unescapeFrom total none (position + Text.byteLength (escapeChar c)) rest).map (c :: ·) := by
  unfold escapeChar
  split
  case h_6 other =>
    have notAmp : c ≠ '&' := fun h => by simp_all
    simp [unescapeFrom, notAmp]
  all_goals rfl

theorem unescapeFrom_escape (total position : Nat) (text : List Char) :
    unescapeFrom total none position (escape text) = .ok text := by
  induction text generalizing position with
  | nil => rfl
  | cons c rest ih =>
    rw [escape, List.flatMap_cons, unescapeFrom_escapeChar, ← escape, ih]
    rfl

/-- What was escaped reads back. -/
theorem unescape_escape (text : List Char) : unescape (escape text) = .ok text :=
  unescapeFrom_escape _ _ text

end RuleNet.Markup
