import RuleNet.Markup.Element
import RuleNet.Rule.Bounds
import RuleNet.Rule.Error

/-!
# Conditions

A condition describes the facts that a pattern matches and has their shape: a
group has a name and conditions for its children, a leaf has a name and either
an inclusive range of numbers or a string.

An element with a `type` attribute defines a leaf of that type, whose children
do not matter; any other element defines a group over its children.
-/

namespace RuleNet.Rule

open Markup (Element)
open Number (Binary64)

/-- A condition on facts. -/
inductive Condition where
  /-- A group of this name with a child for each condition. -/
  | group (name : String) (children : List Condition)
  /-- An integer in the inclusive range. -/
  | int (name : String) (min max : Int64)
  /-- A floating-point number in the inclusive range. -/
  | float (name : String) (min max : Binary64)
  /-- Exactly this string. -/
  | string (name : String) (literal : String)
deriving Inhabited, Repr

namespace Condition

/-- The name that the condition asks for. -/
def name : Condition → String
  | group name _ => name
  | int name _ _ => name
  | float name _ _ => name
  | string name _ => name

/-- The condition asks for a group. -/
def isGroup : Condition → Bool
  | group _ _ => true
  | _ => false

/-- The error about the bounds on the element of the given name. -/
def boundsError (element : String) : BoundsError → RuleError
  | .badNumber text => .badNumber element (String.ofList text)
  | .badRange min max => .badRange element (String.ofList min) (String.ofList max)

/-- The leaf condition that an element with a declared type defines. -/
def ofLeaf (name typeName : String) (text : Option String) : Except RuleError Condition :=
  let content := text.getD ""
  if typeName = "int" then
    ((readBounds intBound content.toList).map fun (min, max) => int name min max).mapError
      (boundsError name)
  else if typeName = "float" then
    ((readBounds floatBound content.toList).map fun (min, max) => float name min max).mapError
      (boundsError name)
  else if typeName = "string" then .ok (string name content)
  else .error (.unknownType name typeName)

mutual
/-- The condition that an element defines. -/
def ofElement : Element → Except RuleError Condition
  | ⟨name, attributes, text, children⟩ =>
      match attributes.lookup "type" with
      | some typeName => ofLeaf name typeName text
      | none => (ofElements children).map (group name)

/-- The conditions that several elements define, or the first error among them. -/
def ofElements : List Element → Except RuleError (List Condition)
  | [] => .ok []
  | element :: rest => do
      let condition ← ofElement element
      let conditions ← ofElements rest
      return condition :: conditions
end

/-! ## Induction -/

mutual
/-- What holds of leaves, and of a group whenever it holds of its children, holds of every
condition. -/
@[elab_as_elim]
theorem induction {motive : Condition → Prop}
    (onGroup : ∀ name children, (∀ child ∈ children, motive child) → motive (group name children))
    (onLeaf : ∀ condition : Condition, condition.isGroup = false → motive condition) :
    ∀ condition, motive condition
  | group name children => onGroup name children (inductionAll onGroup onLeaf children)
  | int name min max => onLeaf (int name min max) rfl
  | float name min max => onLeaf (float name min max) rfl
  | string name literal => onLeaf (string name literal) rfl

/-- The same for every condition of a list. -/
theorem inductionAll {motive : Condition → Prop}
    (onGroup : ∀ name children, (∀ child ∈ children, motive child) → motive (group name children))
    (onLeaf : ∀ condition : Condition, condition.isGroup = false → motive condition) :
    ∀ conditions : List Condition, ∀ condition ∈ conditions, motive condition
  | first :: rest, condition, member => by
      cases member with
      | head => exact induction onGroup onLeaf first
      | tail _ later => exact inductionAll onGroup onLeaf rest condition later
end

end Condition

end RuleNet.Rule
