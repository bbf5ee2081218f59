import RuleNet.Markup.Attribute

/-!
# What can be wrong with a document

A *fault* is a violation of the markup format at some place of the text. A
text without faults can still fail to be a document: an element is left open,
there is a second root, or there is none.
-/

namespace RuleNet.Markup

/-- A violation of the markup format. -/
inductive Fault where
  /-- A tag has no closing `>`. -/
  | openTag
  /-- A comment has no closing mark. -/
  | openComment
  /-- A character data section has no closing mark. -/
  | openCharacterData
  /-- A document type declaration has no closing `>`. -/
  | openDoctype
  /-- A processing instruction has no closing mark. -/
  | openInstruction
  /-- What follows `<!` starts no known construct. -/
  | unknownMarkup
  /-- A document type declaration without a name. -/
  | doctypeName
  /-- An end tag that does not close the innermost open element. -/
  | mismatchedEnd (expected found : String)
  /-- An end tag while no element is open. -/
  | unmatchedEnd (found : String)
  /-- A fault in the attributes of a tag. -/
  | badAttribute (why : AttributeFault)
  /-- A text that cannot be unescaped. -/
  | badEntity (why : EntityError)
deriving DecidableEq, Repr

/-- The complaint about a fault. -/
def Fault.message : Fault → String
  | openTag => "syntax error: tag not closed: `>` not found before end of input"
  | openComment => "syntax error: comment not closed: `-->` not found before end of input"
  | openCharacterData => "syntax error: CDATA not closed: `]]>` not found before end of input"
  | openDoctype => "syntax error: DOCTYPE not closed: `>` not found before end of input"
  | openInstruction =>
      "syntax error: processing instruction or xml declaration not closed: " ++
        "`?>` not found before end of input"
  | unknownMarkup => "syntax error: unknown or missed symbol in markup"
  | doctypeName =>
      "ill-formed document: `<!DOCTYPE>` declaration does not contain a name of a document type"
  | mismatchedEnd expected found =>
      "ill-formed document: expected `</" ++ expected ++ ">`, but `</" ++ found ++ ">` was found"
  | unmatchedEnd found =>
      "ill-formed document: close tag `</" ++ found ++ ">` does not match any open tag"
  | badAttribute why => why.message
  | badEntity why => why.message

/-- Why a text is no document. -/
inductive MarkupError where
  /-- A fault, found when the reader had reached the byte `position`. -/
  | fault (position : Nat) (what : Fault)
  /-- An end tag while no element is open. -/
  | unopened (name : String)
  /-- The innermost element that is still open at the end of the text. -/
  | unclosed (name : String)
  /-- A second element at the top level. -/
  | multipleRoots (name : String)
  /-- There is no element at all. -/
  | noRoot
deriving DecidableEq, Repr

/-- The complaint about a text that is no document. -/
def MarkupError.message : MarkupError → String
  | fault position what =>
      "markup syntax error at byte " ++ toString position ++ ": " ++ what.message
  | unopened name => "unbalanced markup: unexpected </" ++ name ++ ">"
  | unclosed name => "unbalanced markup: unclosed <" ++ name ++ ">"
  | multipleRoots name => "document has more than one root element: <" ++ name ++ ">"
  | noRoot => "document has no root element"

end RuleNet.Markup
