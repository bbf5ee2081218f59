/-!
# Boolean operators

A condition expression combines patterns with `and`, `or` and `not`. The
operator is the tag of its element; any other tag is a pattern.
-/

namespace RuleNet.Rule

/-- An operator of condition expressions. -/
inductive Operator where
  /-- Both operands match. -/
  | and
  /-- At least one operand matches. -/
  | or
  /-- The operand does not match. -/
  | not
deriving DecidableEq, Repr

namespace Operator

/-- The tag of the operator's element. -/
def tag : Operator → String
  | and => "and"
  | or => "or"
  | not => "not"

/-- The number of operands. -/
def arity : Operator → Nat
  | and => 2
  | or => 2
  | not => 1

/-- The operator with the given tag. -/
def ofTag? (name : String) : Option Operator :=
  if name = "and" then some and
  else if name = "or" then some or
  else if name = "not" then some not
  else none

@[simp] theorem ofTag?_tag (operator : Operator) : ofTag? operator.tag = some operator := by
  cases operator <;> decide

theorem tag_of_ofTag? {name : String} {operator : Operator} (h : ofTag? name = some operator) :
    operator.tag = name := by
  unfold ofTag? at h
  split at h
  · next equal => cases h; exact equal.symm
  split at h
  · next equal => cases h; exact equal.symm
  split at h
  · next equal => cases h; exact equal.symm
  · exact absurd h (by simp)

end Operator

end RuleNet.Rule
