import RuleNet.Markup.Element
import RuleNet.Rule.Error

/-!
# Rule definitions

A rule has a name, an `if` clause whose first child is the condition
expression, and an action that nobody here looks into. Nothing is checked
before the rule is compiled.
-/

namespace RuleNet.Rule

open Markup (Element)

/-- A rule as it is handed over to be compiled. -/
structure Definition where
  name : String
  /-- The `if` element. -/
  ifClause : Option Element := none
  /-- The `action` element. -/
  action : Option Element := none
deriving DecidableEq, Inhabited, Repr

namespace Definition

/-- The rule with the given condition expression. -/
def ofCondition (name : String) (condition : Element) : Definition :=
  { name := name, ifClause := some { name := "if", children := [condition] } }

/-- The condition expression: the first element inside the `if` clause. -/
def condition (rule : Definition) : Except RuleError Element :=
  match rule.ifClause with
  | none => .error (.missingIf rule.name)
  | some clause =>
      match clause.firstChild? with
      | none => .error (.emptyIf rule.name)
      | some condition => .ok condition

end Definition

end RuleNet.Rule
