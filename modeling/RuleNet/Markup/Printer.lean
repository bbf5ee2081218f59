import RuleNet.Markup.Element
import RuleNet.Markup.Entity

/-!
# Printing elements

An element is printed without any layout: attributes are separated by single
spaces, text comes before the children, and an element that has neither is
closed in its own tag. Text and attribute values are escaped, names are
printed as they are.
-/

namespace RuleNet.Markup

namespace Element

/-- The attributes of a tag, each after a space. -/
def renderAttributes : List (String × String) → List Char
  | [] => []
  | (key, value) :: rest =>
      ' ' :: key.toList ++ "=\"".toList ++ escape value.toList ++ '"' :: renderAttributes rest

/-- A tag from `<` to before its closing mark. -/
def renderHead (name : String) (attributes : List (String × String)) : List Char :=
  '<' :: name.toList ++ renderAttributes attributes

/-- An end tag. -/
def renderEnd (name : String) : List Char :=
  "</".toList ++ name.toList ++ ['>']

mutual
/-- The printed form of an element. -/
def render : Element → List Char
  | ⟨name, attributes, text, children⟩ =>
      if text.isNone && children.isEmpty then renderHead name attributes ++ "/>".toList
      else
        renderHead name attributes ++ '>' :: escape (text.getD "").toList ++
          renderAll children ++ renderEnd name

/-- The printed forms of several elements, one after the other. -/
def renderAll : List Element → List Char
  | [] => []
  | element :: rest => render element ++ renderAll rest
end

/-- The element as markup. -/
def toMarkup (element : Element) : String :=
  String.ofList element.render

end Element

end RuleNet.Markup
