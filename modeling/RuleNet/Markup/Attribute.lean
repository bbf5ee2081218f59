import RuleNet.Markup.Entity
import RuleNet.Text.Blank

/-!
# Attributes of a tag

The text of a tag after its name is a list of attributes `key="value"` or
`key='value'`. Layout may stand around the equals sign, and none is needed
after a value. Attributes are read one at a time, value included, so the first
fault in document order is the one reported. All positions count bytes from
the start of the tag's name.
-/

namespace RuleNet.Markup

open Text (isLayout byteLength)

/-- What is wrong with an attribute. -/
inductive AttributeFault where
  /-- No `=` follows the key; the place of what follows instead. -/
  | equals (position : Nat)
  /-- Nothing follows the `=`. -/
  | value (position : Nat)
  /-- The value does not start with a quote. -/
  | unquoted (position : Nat)
  /-- The value's quote is never closed. -/
  | unclosed (position : Nat) (quote : Char)
  /-- The key was there before, at the place `previous`. -/
  | duplicate (position previous : Nat)
  /-- The value cannot be unescaped. -/
  | entity (why : EntityError)
deriving DecidableEq, Repr

/-- The complaint about an attribute. -/
def AttributeFault.message : AttributeFault → String
  | equals position =>
      "position " ++ toString position ++
        ": attribute key must be directly followed by `=` or space"
  | value position =>
      "position " ++ toString position ++ ": `=` must be followed by an attribute value"
  | unquoted position =>
      "position " ++ toString position ++ ": attribute value must be enclosed in `\"` or `'`"
  | unclosed position quote =>
      "position " ++ toString position ++ ": missing closing quote `" ++ quote.toString ++
        "` in attribute value"
  | duplicate position previous =>
      "position " ++ toString position ++
        ": duplicated attribute, previous declaration at position " ++ toString previous
  | entity why => why.message

/-- An attribute as it stands in the tag: where its key starts, the key, and
the value as it is written. -/
structure RawAttribute where
  position : Nat
  key : List Char
  value : List Char
deriving DecidableEq, Repr

/-- A key and what follows it. The first character belongs to the key whatever
it is; the others run up to layout or an equals sign. -/
def splitKey : List Char → List Char × List Char
  | [] => ([], [])
  | c :: rest =>
      (c :: rest.takeWhile fun c => !(c == '=' || isLayout c),
        rest.dropWhile fun c => !(c == '=' || isLayout c))

/-- The quoted value after an equals sign and what follows it. `total` is the
length of the whole tag. -/
def readValue (total : Nat) (text : List Char) : Except AttributeFault (List Char × List Char) :=
  match text.dropWhile isLayout with
  | [] => .error (.value total)
  | quote :: rest =>
      if quote == '"' || quote == '\'' then
        match rest.dropWhile (· != quote) with
        | [] => .error (.unclosed total quote)
        | _ :: after => .ok (rest.takeWhile (· != quote), after)
      else .error (.unquoted (total - byteLength (quote :: rest)))

/-- One attribute from its first character on, and what follows it. `seen`
lists the keys read before with their places. -/
def readAttribute (total : Nat) (seen : List (List Char × Nat)) (text : List Char) :
    Except AttributeFault (RawAttribute × List Char) :=
  let position := total - byteLength text
  let (key, rest) := splitKey text
  match rest.dropWhile isLayout with
  | '=' :: rest =>
      match seen.lookup key with
      | some previous => .error (.duplicate position previous)
      | none => (readValue total rest).map fun (value, after) => (⟨position, key, value⟩, after)
  | rest => .error (.equals (total - byteLength rest))

/-- All attributes of a tag's text, at most `fuel` of them. -/
def readAttributesFrom (total : Nat) :
    Nat → List (List Char × Nat) → List Char → Except AttributeFault (List (String × String))
  | 0, _, _ => .ok []
  | fuel + 1, seen, text =>
      match text.dropWhile isLayout with
      | [] => .ok []
      | c :: rest => do
          let (raw, after) ← readAttribute total seen (c :: rest)
          let value ← (unescape raw.value).mapError .entity
          let others ← readAttributesFrom total fuel ((raw.key, raw.position) :: seen) after
          return (String.ofList raw.key, String.ofList value) :: others

/-- The attributes in a tag's text after its name, in document order. `total`
is the length of the tag's text, its name included. Every attribute takes at
least one character, so the length of the text bounds their number. -/
def readAttributes (total : Nat) (text : List Char) :
    Except AttributeFault (List (String × String)) :=
  readAttributesFrom total text.length [] text

end RuleNet.Markup
