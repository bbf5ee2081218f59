/-!
# Markup elements

A document is a tree of elements. An element has a tag name, attributes in
document order (keys may repeat, the first one counts), an optional text and
child elements. Text that is interleaved with children is kept as one text, so
no text (`none`) differs from an empty one.
-/

namespace RuleNet.Markup

/-- A markup element with its attributes, text and child elements. -/
structure Element where
  /-- The tag name. -/
  name : String
  /-- Keys and values in document order. -/
  attributes : List (String × String) := []
  /-- The text content, if there is any. -/
  text : Option String := none
  /-- The child elements in document order. -/
  children : List Element := []
deriving Inhabited, Repr

/-! ## Equality is decidable -/

mutual
/-- Two elements are compared part by part. -/
def Element.decEq : (a b : Element) → Decidable (a = b)
  | ⟨name, attributes, text, children⟩, ⟨name', attributes', text', children'⟩ =>
      if own : name = name' ∧ attributes = attributes' ∧ text = text' then
        match Element.decEqList children children' with
        | isTrue same => isTrue (by rw [own.1, own.2.1, own.2.2, same])
        | isFalse differ => isFalse fun equal => differ (by injection equal)
      else isFalse fun equal => own (by injection equal; exact ⟨‹_›, ‹_›, ‹_›⟩)

/-- Two lists of elements are compared one by one. -/
def Element.decEqList : (as bs : List Element) → Decidable (as = bs)
  | [], [] => isTrue rfl
  | [], _ :: _ => isFalse fun equal => nomatch equal
  | _ :: _, [] => isFalse fun equal => nomatch equal
  | a :: as, b :: bs =>
      match Element.decEq a b with
      | isFalse differ => isFalse fun equal => differ (List.cons.inj equal).1
      | isTrue head =>
          match Element.decEqList as bs with
          | isTrue tail => isTrue (by rw [head, tail])
          | isFalse differ => isFalse fun equal => differ (List.cons.inj equal).2
end

instance : DecidableEq Element := Element.decEq

namespace Element

/-! ## Looking things up -/

/-- The value of the first attribute with the given key. -/
def attribute? (e : Element) (key : String) : Option String :=
  e.attributes.lookup key

/-- The first child element. -/
def firstChild? (e : Element) : Option Element :=
  e.children.head?

/-- The child elements with the given tag name, in document order. -/
def childrenNamed (e : Element) (name : String) : List Element :=
  e.children.filter fun child => child.name == name

/-- The first child element with the given tag name. -/
def child? (e : Element) (name : String) : Option Element :=
  e.children.find? fun child => child.name == name

/-! ## Building -/

/-- The element with one more attribute at the end. -/
def addAttribute (e : Element) (key value : String) : Element :=
  { e with attributes := e.attributes ++ [(key, value)] }

/-- The element with one more child at the end. -/
def addChild (e : Element) (child : Element) : Element :=
  { e with children := e.children ++ [child] }

/-- The element with a piece of text behind the text it has. An empty piece
changes nothing: it does not give a text to an element without one. -/
def addText (e : Element) (piece : String) : Element :=
  if piece.isEmpty then e else { e with text := some (e.text.getD "" ++ piece) }

/-! ## Induction -/

mutual
/-- What holds of an element whenever it holds of its children holds of every element. -/
@[elab_as_elim]
theorem induction {motive : Element → Prop}
    (step : ∀ element, (∀ child ∈ element.children, motive child) → motive element) :
    ∀ element, motive element
  | ⟨_, _, _, children⟩ => step _ (inductionAll step children)

/-- The same for every element of a list. -/
theorem inductionAll {motive : Element → Prop}
    (step : ∀ element, (∀ child ∈ element.children, motive child) → motive element) :
    ∀ elements : List Element, ∀ child ∈ elements, motive child
  | element :: rest, child, member => by
      cases member with
      | head => exact induction step element
      | tail _ later => exact inductionAll step rest child later
end

end Element

end RuleNet.Markup
