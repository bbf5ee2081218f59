import RuleNet.Rule.Operator

/-!
# What can be wrong with a rule

Matching never fails: everything that can be wrong with a rule is found when
the rule is compiled. The complaint names the rule exactly once
(`RuleError.inRule`).
-/

namespace RuleNet.Rule

/-- Why a rule cannot be compiled. -/
inductive RuleError where
  /-- The rule has no `if` clause. -/
  | missingIf (rule : String)
  /-- The `if` clause holds no condition. -/
  | emptyIf (rule : String)
  /-- An operator has a wrong number of operands. -/
  | arity (operator : Operator) (found : Nat)
  /-- A leaf declares a type that is not known. -/
  | unknownType (element typeName : String)
  /-- A bound is no number of the declared type. -/
  | badNumber (element text : String)
  /-- The lower bound is not below or at the upper one. -/
  | badRange (element min max : String)
  /-- An error in the condition of the named rule. -/
  | within (rule : String) (cause : RuleError)
deriving DecidableEq, Repr

namespace RuleError

/-- The complaint about a rule. -/
def message : RuleError → String
  | missingIf rule => "rule '" ++ rule ++ "' has no if clause"
  | emptyIf rule => "rule '" ++ rule ++ "' has an empty if clause"
  | arity operator found =>
      "operator '" ++ operator.tag ++ "' expects " ++ toString operator.arity ++
        " operand(s), found " ++ toString found
  | unknownType element typeName =>
      "unsupported condition type '" ++ typeName ++ "' on <" ++ element ++ ">"
  | badNumber element text => "invalid numeric bound '" ++ text ++ "' on <" ++ element ++ ">"
  | badRange element min max =>
      "invalid range [" ++ min ++ ", " ++ max ++ "] on <" ++ element ++ ">"
  | within rule cause => "rule '" ++ rule ++ "': " ++ cause.message

/-- The rule that an error names. -/
def rule? : RuleError → Option String
  | missingIf rule => some rule
  | emptyIf rule => some rule
  | within rule _ => some rule
  | _ => none

/-- The error as one of the given rule, unless it names a rule already. -/
def inRule (name : String) (error : RuleError) : RuleError :=
  match error.rule? with
  | some _ => error
  | none => within name error

end RuleError

end RuleNet.Rule
