import RuleNet.Markup.Document
import RuleNet.Rule.Definition

/-!
# Rule documents

Rules are written as a markup document: a root element `rules` with a child
`rule` for every rule. A rule may have a `name` attribute; without one it is
called after its position among the rules. Its `if` and `action` elements are
taken as they are, and everything else is ignored.
-/

namespace RuleNet.Rule

open Markup (Element MarkupError)

/-- Why there are no rules. -/
inductive DocumentError where
  /-- The file at `path` cannot be read. -/
  | unreadable (path : String) (why : Text.Unreadable)
  /-- The text is no markup document. -/
  | markup (why : MarkupError)
  /-- The root element has another name. -/
  | wrongRoot (found : String)
deriving DecidableEq, Repr

/-- The complaint about a rule document. -/
def DocumentError.message : DocumentError → String
  | unreadable path why => "parse error: " ++ why.message path
  | markup why => "parse error: " ++ why.message
  | wrongRoot found => "parse error: expected <rules> root element, found <" ++ found ++ ">"

/-- The extensions of the files that rule documents are kept in, without the dot. -/
def documentExtensions : List String := ["xml"]

/-- The rule that a `rule` element defines, `position` being its place among
the rules, counted from one. -/
def Definition.ofElement (position : Nat) (element : Element) : Definition where
  name := (element.attribute? "name").getD ("rule-" ++ toString position)
  ifClause := element.child? "if"
  action := element.child? "action"

/-- The rules that several elements define, counted from `position` on. -/
def Definition.ofElements : Nat → List Element → List Definition
  | _, [] => []
  | position, element :: rest => ofElement position element :: ofElements (position + 1) rest

/-- The rules of a document, in document order. -/
def readRules (text : String) : Except DocumentError (List Definition) :=
  match Element.parse text with
  | .error why => .error (.markup why)
  | .ok root =>
      if root.name = "rules" then .ok (Definition.ofElements 1 (root.childrenNamed "rule"))
      else .error (.wrongRoot root.name)

/-- The rules of the file at `path`, given its bytes if it exists. -/
def readRulesFile (path : String) (bytes : Option ByteArray) :
    Except DocumentError (List Definition) :=
  match Text.readFile bytes with
  | .error why => .error (.unreadable path why)
  | .ok text => readRules text

end RuleNet.Rule
