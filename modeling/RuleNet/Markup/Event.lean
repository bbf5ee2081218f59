import RuleNet.Markup.Delimiter
import RuleNet.Markup.Fault

/-!
# The events of a text

A text of markup is read as a sequence of events: tags, pieces of text and
constructs that carry no content. Layout around a piece of text is dropped,
tags are checked to be balanced, attributes and text are unescaped. Reading
stops at the first fault; the events before it are still given, because what
is wrong with them comes first.
-/

namespace RuleNet.Markup

open Text (isLayout trimEnd byteLength)

/-- One step of a text of markup. -/
inductive Event where
  /-- A start tag. -/
  | opening (name : String) (attributes : List (String × String))
  /-- A tag that is start and end in one. -/
  | empty (name : String) (attributes : List (String × String))
  /-- An end tag. -/
  | closing (name : String)
  /-- A piece of text, unescaped. -/
  | text (content : String)
  /-- The content of a character data section, as it is written. -/
  | characterData (content : String)
  /-- A comment, declaration or processing instruction. -/
  | aside
deriving DecidableEq, Repr

/-- Where reading failed: the fault and the text that was not read. -/
structure Failure where
  what : Fault
  rest : List Char
deriving DecidableEq, Repr

/-- What reading one construct gives: its event, the names of the elements that
are open after it (innermost first), and the text that follows. -/
structure Reading where
  event : Event
  openNames : List String
  rest : List Char
deriving DecidableEq, Repr

/-! ## Tags -/

/-- A tag's text is its name, up to the first layout, and its attributes. -/
def readTag (content rest : List Char) : Except Failure (String × List (String × String)) :=
  let name := content.takeWhile fun c => !isLayout c
  let after := content.dropWhile fun c => !isLayout c
  match readAttributes (byteLength content) after with
  | .error why => .error ⟨.badAttribute why, rest⟩
  | .ok attributes => .ok (String.ofList name, attributes)

/-- A start tag, or an element without content if its text ends in a slash. -/
def readStart (openNames : List String) (content rest : List Char) : Except Failure Reading :=
  if content.getLast? = some '/' then
    (readTag content.dropLast rest).map fun (name, attributes) =>
      ⟨.empty name attributes, openNames, rest⟩
  else
    (readTag content rest).map fun (name, attributes) =>
      ⟨.opening name attributes, name :: openNames, rest⟩

/-- The name of an end tag: layout at its end does not count, unless there is nothing else. -/
def endName (content : List Char) : String :=
  String.ofList (if content.all isLayout then content else trimEnd isLayout content)

/-- An end tag closes the innermost open element, whose name it repeats. -/
def readEnd (openNames : List String) (content rest : List Char) : Except Failure Reading :=
  let found := endName content
  match openNames with
  | [] => .error ⟨.unmatchedEnd found, rest⟩
  | expected :: outer =>
      if found = expected then .ok ⟨.closing found, outer, rest⟩
      else .error ⟨.mismatchedEnd expected found, rest⟩

/-! ## Other constructs -/

/-- What starts with `<![` has to be a character data section. -/
def readCharacterData (openNames : List String) (text : List Char) : Except Failure Reading :=
  match splitClosing? closesCharacterData [] text with
  | none => .error ⟨.openCharacterData, []⟩
  | some (inside, rest) =>
      if inside.take 8 = "![CDATA[".toList then
        let content := (inside.drop 8).take (inside.length - 10)
        .ok ⟨.characterData (String.ofList content), openNames, rest⟩
      else .error ⟨.openCharacterData, rest⟩

/-- What starts with `<!-` has to be a comment. -/
def readComment (openNames : List String) (text : List Char) : Except Failure Reading :=
  match splitClosing? closesComment [] text with
  | none => .error ⟨.openComment, []⟩
  | some (inside, rest) =>
      if inside.take 3 = "!--".toList then .ok ⟨.aside, openNames, rest⟩
      else .error ⟨.openComment, rest⟩

/-- What starts with `<!D` has to be a document type declaration with a name. -/
def readDoctype (openNames : List String) (text : List Char) : Except Failure Reading :=
  match splitClosing? closesDoctype [] text with
  | none => .error ⟨.openDoctype, []⟩
  | some (inside, rest) =>
      if (inside.take 8).map Char.toLower = "!doctype".toList then
        if (inside.drop 8).all isLayout then .error ⟨.doctypeName, rest⟩
        else .ok ⟨.aside, openNames, rest⟩
      else .error ⟨.openDoctype, rest⟩

/-- What starts with `<?` is a processing instruction; its two question marks are different ones. -/
def readInstruction (openNames : List String) (text : List Char) : Except Failure Reading :=
  match splitClosing? closesInstruction [] text with
  | none => .error ⟨.openInstruction, []⟩
  | some (inside, rest) =>
      if inside.length < 2 then .error ⟨.openInstruction, rest⟩
      else .ok ⟨.aside, openNames, rest⟩

/-- The construct that starts with the `<` before the text. -/
def readMarkup (openNames : List String) (text : List Char) : Except Failure Reading :=
  match text with
  | [] => .error ⟨.openTag, []⟩
  | '!' :: '[' :: _ => readCharacterData openNames text
  | '!' :: '-' :: _ => readComment openNames text
  | '!' :: 'D' :: _ => readDoctype openNames text
  | '!' :: 'd' :: _ => readDoctype openNames text
  | '!' :: _ => .error ⟨.unknownMarkup, text⟩
  | '?' :: _ => readInstruction openNames text
  | '/' :: _ =>
      match splitTag? none text with
      | none => .error ⟨.openTag, []⟩
      | some (inside, rest) => readEnd openNames (inside.drop 1) rest
  | _ =>
      match splitTag? none text with
      | none => .error ⟨.openTag, []⟩
      | some (inside, rest) => readStart openNames inside rest

/-- A piece of text runs up to the next `<`; layout at its end is dropped. -/
def readText (openNames : List String) (text : List Char) : Except Failure Reading :=
  let content := text.takeWhile (· != '<')
  let rest := text.dropWhile (· != '<')
  match unescape (trimEnd isLayout content) with
  | .error why => .error ⟨.badEntity why, rest⟩
  | .ok plain => .ok ⟨.text (String.ofList plain), openNames, rest⟩

/-! ## The whole text -/

/-- The next event, or nothing when only layout is left. -/
def readEvent? (openNames : List String) (text : List Char) : Option (Except Failure Reading) :=
  match text.dropWhile isLayout with
  | [] => none
  | '<' :: rest => some (readMarkup openNames rest)
  | rest => some (readText openNames rest)

/-- The events of a text up to the first failure, at most `fuel` of them. -/
def eventsFrom : Nat → List String → List Char → List Event × Option Failure
  | 0, _, _ => ([], none)
  | fuel + 1, openNames, text =>
      match readEvent? openNames text with
      | none => ([], none)
      | some (.error failure) => ([], some failure)
      | some (.ok reading) =>
          let (events, failure) := eventsFrom fuel reading.openNames reading.rest
          (reading.event :: events, failure)

/-- The events of a text, and the failure that ended it, if one did. Every
event takes at least one character, so the length of the text bounds their
number. -/
def events (text : List Char) : List Event × Option Failure :=
  eventsFrom text.length [] text

end RuleNet.Markup
