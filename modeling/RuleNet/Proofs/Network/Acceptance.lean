import RuleNet.Network.Builder
import RuleNet.Proofs.Rule.Schema

/-!
# Which rules are accepted

A rule is accepted if its `if` clause starts with a condition expression: an
operator with as many operands as it takes, all of them expressions, or else a
schema (`IsExpression`). A rule that is refused is complained about by name
(`Complaint`): the clause is missing or empty, or something is wrong inside the
expression, where the first fault in document order counts. An operator stands
before its operands in that order.

* `verdict_expression`: an expression is planned, or refused for the first fault.
* `addRule_exact`: what is accepted, and which complaint is made otherwise.
-/

namespace RuleNet.Network

open Markup (Element)
open Rule (Condition Definition Faultless FirstFault IsSchema Key Operator RuleError SchemaFault
  Single Verdict schemaParts)

/-! ## Expressions -/

/-- The element is an operator with its operands, or a pattern of facts. -/
inductive IsExpression : Element → Prop
  | operator {element : Element} {operator : Operator} :
      Operator.ofTag? element.name = some operator →
      element.children.length = operator.arity →
      (∀ child ∈ element.children, IsExpression child) → IsExpression element
  | pattern {element : Element} :
      Operator.ofTag? element.name = none → IsSchema element → IsExpression element

/-- A part of a condition expression. -/
inductive Part where
  | operator (operator : Operator) (element : Element)
  | schema (element : Element)

mutual
/-- The parts of an expression in document order. -/
def parts : Element → List Part
  | ⟨name, attributes, text, children⟩ =>
      match Operator.ofTag? name with
      | some operator => .operator operator ⟨name, attributes, text, children⟩ :: partsAll children
      | none => (schemaParts ⟨name, attributes, text, children⟩).map .schema

/-- The parts of several expressions. -/
def partsAll : List Element → List Part
  | [] => []
  | element :: rest => parts element ++ partsAll rest
end

/-- What is wrong with a part itself. -/
inductive PartFault : Part → RuleError → Prop
  | arity {operator : Operator} {element : Element} :
      element.children.length ≠ operator.arity →
      PartFault (.operator operator element) (.arity operator element.children.length)
  | schema {element : Element} {why : RuleError} :
      SchemaFault element why → PartFault (.schema element) why

section Expressions

variable {element : Element} {operator : Operator} {why : RuleError}

theorem partsAll_eq (elements : List Element) : partsAll elements = elements.flatMap parts := by
  induction elements with
  | nil => rfl
  | cons element rest ih => rw [partsAll, ih, List.flatMap_cons]

theorem parts_of_operator (tag : Operator.ofTag? element.name = some operator) :
    parts element = .operator operator element :: element.children.flatMap parts := by
  obtain ⟨name, attributes, text, children⟩ := element
  rw [parts, show Operator.ofTag? name = some operator from tag]
  exact congrArg _ (partsAll_eq children)

theorem parts_of_pattern (tag : Operator.ofTag? element.name = none) :
    parts element = (schemaParts element).map .schema := by
  obtain ⟨name, attributes, text, children⟩ := element
  rw [parts, show Operator.ofTag? name = none from tag]

theorem ofElement_of_operator (tag : Operator.ofTag? element.name = some operator) :
    Plan.ofElement element =
      if element.children.length = operator.arity then
        (Plan.ofElements element.children).map (.join (Key.ofElement element) operator)
      else .error (.arity operator element.children.length) := by
  obtain ⟨name, attributes, text, children⟩ := element
  rw [Plan.ofElement, show Operator.ofTag? name = some operator from tag]

theorem ofElement_of_pattern (tag : Operator.ofTag? element.name = none) :
    Plan.ofElement element =
      (Condition.ofElement element).map (.pattern (Key.ofElement element)) := by
  obtain ⟨name, attributes, text, children⟩ := element
  rw [Plan.ofElement, show Operator.ofTag? name = none from tag]

theorem single_partFault : Single PartFault := by
  intro part why why' fault fault'
  cases fault with
  | arity => cases fault'; rfl
  | schema fault =>
    cases fault' with
    | schema fault' => exact Rule.single_schemaFault fault fault'

theorem firstFault_map_schema {elements : List Element}
    (first : FirstFault SchemaFault elements why) :
    FirstFault PartFault (elements.map .schema) why := by
  induction first with
  | here fault => exact .here (.schema fault)
  | later fine _ ih =>
    refine .later (fun why fault => ?_) ih
    cases fault with
    | schema fault => exact fine why fault

theorem faultless_map_schema {elements : List Element} (fine : Faultless SchemaFault elements) :
    Faultless PartFault (elements.map .schema) := by
  intro part member why fault
  obtain ⟨element, inside, rfl⟩ := List.mem_map.mp member
  cases fault with
  | schema fault => exact fine element inside why fault

/-- Patterns are checked as schemas. -/
theorem verdict_pattern (tag : Operator.ofTag? element.name = none) :
    Verdict PartFault (parts element) (IsExpression element) (Plan.ofElement element) := by
  rw [parts_of_pattern tag, ofElement_of_pattern tag]
  cases Rule.verdict_schema element with
  | accepted condition schema fine same =>
    refine .accepted (.pattern (Key.ofElement element) condition) (.pattern tag schema)
      (faultless_map_schema fine) ?_
    rw [same]
    rfl
  | refused why no first same =>
    refine .refused why ?_ (firstFault_map_schema first) ?_
    · intro expression
      cases expression with
      | operator tag' => exact nomatch tag.symm.trans tag'
      | pattern _ schema => exact no schema
    · rw [same]
      rfl

/-- Operators are counted before their operands are checked. -/
theorem verdict_operator (tag : Operator.ofTag? element.name = some operator)
    (each : ∀ child ∈ element.children,
      Verdict PartFault (parts child) (IsExpression child) (Plan.ofElement child)) :
    Verdict PartFault (parts element) (IsExpression element) (Plan.ofElement element) := by
  rw [parts_of_operator tag, ofElement_of_operator tag]
  have inversion : IsExpression element → element.children.length = operator.arity ∧
      ∀ child ∈ element.children, IsExpression child := by
    intro expression
    cases expression with
    | operator tag' count all =>
      cases tag.symm.trans tag'
      exact ⟨count, all⟩
    | pattern tag' => exact nomatch tag.symm.trans tag'
  by_cases count : element.children.length = operator.arity
  · rw [if_pos count]
    have own : ∀ why, ¬ PartFault (.operator operator element) why := by
      rintro _ ⟨miscounted⟩
      exact miscounted count
    have below : Verdict PartFault (element.children.flatMap parts)
        (∀ child ∈ element.children, IsExpression child) (Plan.ofElements element.children) :=
      Verdict.all (g := Plan.ofElements) rfl (fun _ _ => rfl) each
    cases below with
    | accepted plans yes fine same =>
      refine .accepted (.join (Key.ofElement element) operator plans) (.operator tag count yes)
        (List.forall_mem_cons.mpr ⟨own, fine⟩) ?_
      rw [same]
      rfl
    | refused why no first same =>
      refine .refused why (fun expression => no (inversion expression).2) (.later own first) ?_
      rw [same]
      rfl
  · rw [if_neg count]
    exact .refused _ (fun expression => count (inversion expression).1) (.here (.arity count)) rfl

/-- An expression is planned, or refused for the first fault. -/
theorem verdict_expression (element : Element) :
    Verdict PartFault (parts element) (IsExpression element) (Plan.ofElement element) := by
  induction element using Element.induction with
  | step element ih =>
    cases tag : Operator.ofTag? element.name with
    | none => exact verdict_pattern tag
    | some operator => exact verdict_operator tag ih

/-- What is wrong inside an expression does not name the rule. -/
theorem rule?_of_partFault {part : Part} (fault : PartFault part why) : why.rule? = none := by
  cases fault with
  | arity => rfl
  | schema fault =>
    obtain ⟨-, fault⟩ := fault
    cases fault with
    | int _ fault => cases fault <;> rfl
    | float _ fault => cases fault <;> rfl
    | type => rfl

theorem rule?_of_firstFault {list : List Part} (first : FirstFault PartFault list why) :
    why.rule? = none := by
  induction first with
  | here fault => exact rule?_of_partFault fault
  | later _ _ ih => exact ih

end Expressions

/-! ## Rules -/

/-- The rule has a clause that starts with an expression. -/
inductive Acceptable (rule : Definition) : Prop
  | intro {clause condition : Element} :
      rule.ifClause = some clause → clause.children.head? = some condition →
      IsExpression condition → Acceptable rule

/-- What a rule is refused for. -/
inductive Complaint (rule : Definition) : RuleError → Prop
  | missing : rule.ifClause = none → Complaint rule (.missingIf rule.name)
  | empty {clause : Element} :
      rule.ifClause = some clause → clause.children = [] → Complaint rule (.emptyIf rule.name)
  | fault {clause condition : Element} {cause : RuleError} :
      rule.ifClause = some clause → clause.children.head? = some condition →
      FirstFault PartFault (parts condition) cause → Complaint rule (.within rule.name cause)

section Rules

variable {rule : Definition}

theorem single_complaint : Single Complaint := by
  intro rule why why' complaint complaint'
  cases complaint with
  | missing absent =>
    cases complaint' with
    | missing => rfl
    | empty present | fault present => exact nomatch absent.symm.trans present
  | empty present nothing =>
    cases complaint' with
    | missing absent => exact nomatch absent.symm.trans present
    | empty => rfl
    | fault present' head =>
      cases present.symm.trans present'
      rw [nothing] at head
      cases head
  | fault present head first =>
    cases complaint' with
    | missing absent => exact nomatch absent.symm.trans present
    | empty present' nothing =>
      cases present.symm.trans present'
      rw [nothing] at head
      cases head
    | fault present' head' first' =>
      cases present.symm.trans present'
      cases head.symm.trans head'
      rw [first.unique single_partFault first']

/-- A clause whose first element is an expression gives no cause for complaint. -/
theorem not_complaint {clause condition : Element} {why : RuleError}
    (present : rule.ifClause = some clause) (head : clause.children.head? = some condition)
    (fine : Faultless PartFault (parts condition)) : ¬ Complaint rule why := by
  intro complaint
  cases complaint with
  | missing absent => exact nomatch present.symm.trans absent
  | empty present' nothing =>
    cases present.symm.trans present'
    rw [nothing] at head
    cases head
  | fault present' head' first =>
    cases present.symm.trans present'
    cases head.symm.trans head'
    exact first.not_faultless fine

/-- A clause whose first element is no expression makes a rule unacceptable. -/
theorem not_acceptable {clause condition : Element} (present : rule.ifClause = some clause)
    (head : clause.children.head? = some condition) (no : ¬ IsExpression condition) :
    ¬ Acceptable rule := by
  rintro ⟨present', head', expression⟩
  cases present.symm.trans present'
  cases head.symm.trans head'
  exact no expression

/-- A rule has a plan, or there is a complaint about it. -/
theorem verdict_rule (rule : Definition) :
    Verdict Complaint [rule] (Acceptable rule) (Plan.ofRule rule) := by
  rw [Plan.ofRule, Definition.condition]
  cases present : rule.ifClause with
  | none =>
    refine .refused (.missingIf rule.name) ?_ (.here (.missing present)) rfl
    rintro ⟨present', -, -⟩
    exact nomatch present.symm.trans present'
  | some clause =>
    cases head : clause.children.head? with
    | none =>
      have nothing := List.head?_eq_none_iff.mp head
      refine .refused (.emptyIf rule.name) ?_ (.here (.empty present nothing)) ?_
      · rintro ⟨present', head', -⟩
        cases present.symm.trans present'
        exact nomatch head.symm.trans head'
      · simp only [Element.firstChild?, head]
        rfl
    | some condition =>
      simp only [Element.firstChild?, head]
      cases verdict_expression condition with
      | accepted plan expression fine same =>
        refine .accepted plan (.intro present head expression) ?_ ?_
        · intro part member why
          cases List.mem_singleton.mp member
          exact not_complaint present head fine
        · show (Plan.ofElement condition).mapError _ = _
          rw [same]
          rfl
      | refused why no first same =>
        refine .refused (.within rule.name why) (not_acceptable present head no)
          (.here (.fault present head first)) ?_
        show (Plan.ofElement condition).mapError _ = _
        rw [same, Except.mapError, RuleError.inRule, rule?_of_firstFault first]

/-- A rule is added exactly if it is acceptable, and otherwise it is complained about.
The complaint names the rule, and what it says about the inside of the rule does not
name it again. -/
theorem addRule_exact (builder : Builder) (rule : Definition) :
    ((∃ attached grown, builder.addRule rule = .ok (attached, grown)) ↔ Acceptable rule) ∧
      (∀ why, builder.addRule rule = .error why ↔ Complaint rule why) ∧
      ∀ why, Complaint rule why → why.rule? = some rule.name ∧
        ∀ name cause, why = .within name cause → cause.rule? = none := by
  have verdict : Verdict Complaint [rule] (Acceptable rule) (builder.addRule rule) :=
    ((verdict_rule rule).map _).map _
  refine ⟨?_, fun why => ?_, fun why complaint => ?_⟩
  · rw [← verdict.ok_iff, Prod.exists]
  · rw [verdict.error_iff single_complaint, Rule.firstFault_singleton]
  · cases complaint with
    | missing => exact ⟨rfl, fun _ _ same => nomatch same⟩
    | empty => exact ⟨rfl, fun _ _ same => nomatch same⟩
    | fault _ _ first =>
      refine ⟨rfl, ?_⟩
      rintro _ _ ⟨⟩
      exact rule?_of_firstFault first

/-- The operators are counted, then the first operand is, and only then a number is read. -/
example :
    let number : Element := ⟨"hp", [("type", "int")], some "five", []⟩
    (Builder.ofConfig {}).addRule
        (.ofCondition "r" ⟨"and", [], none, [⟨"not", [], none, []⟩, number]⟩) =
      .error (.within "r" (.arity .not 0)) := rfl

end Rules

end RuleNet.Network
