import RuleNet.Markup.Element
import RuleNet.Markup.Event

/-!
# Documents

A document is a text whose events form exactly one element. Texts and children
go to the innermost open element; what stands outside of the root element is
dropped, unless it is a second root.
-/

namespace RuleNet.Markup

/-- The elements under construction: those still open, innermost first, and the
finished root. -/
structure Assembly where
  openElements : List Element := []
  root : Option Element := none
deriving DecidableEq, Repr

namespace Assembly

/-- A finished element becomes a child of the innermost open one, or the root. -/
def attach (assembly : Assembly) (element : Element) : Except MarkupError Assembly :=
  match assembly.openElements with
  | parent :: outer => .ok { assembly with openElements := parent.addChild element :: outer }
  | [] =>
      match assembly.root with
      | some _ => .error (.multipleRoots element.name)
      | none => .ok { assembly with root := some element }

/-- A piece of text goes to the innermost open element; outside of the root it is dropped. -/
def addText (assembly : Assembly) (piece : String) : Assembly :=
  match assembly.openElements with
  | [] => assembly
  | element :: outer => { assembly with openElements := element.addText piece :: outer }

/-- The effect of one event. Character data counts without the blanks around it. -/
def step (assembly : Assembly) : Event → Except MarkupError Assembly
  | .opening name attributes =>
      .ok { assembly with
        openElements := { name := name, attributes := attributes } :: assembly.openElements }
  | .empty name attributes => assembly.attach { name := name, attributes := attributes }
  | .closing name =>
      match assembly.openElements with
      | [] => .error (.unopened name)
      | element :: outer => { assembly with openElements := outer }.attach element
  | .text content => .ok (assembly.addText content)
  | .characterData content =>
      .ok (assembly.addText (String.ofList (Text.trim Text.isBlank content.toList)))
  | .aside => .ok assembly

/-- The root element, once all events have had their effect. -/
def finish (assembly : Assembly) : Except MarkupError Element :=
  match assembly.openElements, assembly.root with
  | element :: _, _ => .error (.unclosed element.name)
  | [], some root => .ok root
  | [], none => .error .noRoot

end Assembly

/-- The document that a text denotes. A text without its byte order mark is
read; positions do not count the mark. -/
def Element.parse (text : String) : Except MarkupError Element :=
  let characters := Text.dropByteOrderMark text.toList
  let (events, failure) := Markup.events characters
  match events.foldlM Assembly.step {}, failure with
  | .error why, _ => .error why
  | .ok _, some failure =>
      .error (.fault (Text.byteLength characters - Text.byteLength failure.rest) failure.what)
  | .ok assembly, none => assembly.finish

end RuleNet.Markup
