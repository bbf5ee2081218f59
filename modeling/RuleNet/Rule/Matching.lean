import RuleNet.Memory.Fact
import RuleNet.Rule.Condition

/-!
# Matching a condition against a fact

A match binds one leaf fact for every leaf of the condition, in document
order: each child condition of a group takes the first child fact that
satisfies it. A wildcard name on a leaf condition accepts leaves of any name;
group names are never wildcards.

There are two forms. `match?` says what a match binds; `test` appends it to the
bindings collected so far, with a list of its own for every attempt that can
still fail.
-/

namespace RuleNet.Rule

open Memory (Fact FactId Value)

/-- The identifiers of the leaf facts that satisfied a condition. -/
abbrev Bindings := List FactId

namespace Condition

/-- The name of a leaf condition accepts the name of a leaf fact. -/
def acceptsName (isWildcard : String → Bool) (wanted found : String) : Bool :=
  isWildcard wanted || wanted == found

theorem acceptsName_eq_true {isWildcard : String → Bool} {wanted found : String} :
    acceptsName isWildcard wanted found = true ↔ isWildcard wanted = true ∨ found = wanted := by
  rw [acceptsName, Bool.or_eq_true, beq_iff_eq, @eq_comm _ wanted]

mutual
/-- What a match of the condition with a fact binds, if they match. -/
def match? (isWildcard : String → Bool) : Condition → Fact → Option Bindings
  | group wanted conditions, .group found children =>
      if found = wanted then matchAll? isWildcard conditions children else none
  | int wanted min max, .leaf id found (.int n) =>
      if acceptsName isWildcard wanted found && (min ≤ n && n ≤ max) then some [id] else none
  | float wanted min max, .leaf id found (.float x) =>
      if acceptsName isWildcard wanted found && (min.le x && x.le max) then some [id] else none
  | string wanted literal, .leaf id found (.string s) =>
      if acceptsName isWildcard wanted found && s == literal then some [id] else none
  | _, _ => none

/-- What the conditions bind, each with the first fact of the list that matches it. -/
def matchAll? (isWildcard : String → Bool) : List Condition → List Fact → Option Bindings
  | [], _ => some []
  | condition :: conditions, facts =>
      match facts.findSome? (match? isWildcard condition),
        matchAll? isWildcard conditions facts with
      | some first, some others => some (first ++ others)
      | _, _ => none
end

/-- What matches has the name that was asked for, or a leaf asked for any name. -/
theorem name_of_match? {isWildcard : String → Bool} {condition : Condition} {fact : Fact}
    {bound : Bindings} (found : condition.match? isWildcard fact = some bound) :
    (condition.isGroup = false ∧ isWildcard condition.name = true) ∨
      fact.name = condition.name := by
  unfold match? at found
  split at found
  case h_1 =>
    split at found
    · next same => exact .inr same
    · cases found
  case h_5 => cases found
  -- The leaves differ only in the test of the value.
  all_goals
    split at found
    · next accepted =>
      rw [Bool.and_eq_true, acceptsName_eq_true] at accepted
      exact accepted.1.imp_left fun wild => ⟨rfl, wild⟩
    · cases found

/-! ## Collecting bindings -/

/-- The value of a leaf fact is what a leaf condition asks for: it has the type,
and it lies in the range or is the string. -/
def acceptsValue : Condition → Value → Bool
  | int _ min max, .int n => min ≤ n && n ≤ max
  | float _ min max, .float x => min.le x && x.le max
  | string _ literal, .string s => s == literal
  | _, _ => false

/-- The test of a leaf condition: the leaf that passes it is bound. -/
def testLeaf (isWildcard : String → Bool) (condition : Condition) :
    Fact → Bindings → Bool × Bindings
  | .leaf id found value, bindings =>
      if acceptsName isWildcard condition.name found && condition.acceptsValue value then
        (true, bindings ++ [id])
      else (false, bindings)
  | .group _ _, bindings => (false, bindings)

/-- The test of a list of facts one by one, each of them from no bindings on. The
first one that passes ends it and hands over what it bound. -/
def testAny (attempt : Fact → Bindings → Bool × Bindings) :
    List Fact → Bindings → Bool × Bindings
  | [], bindings => (false, bindings)
  | fact :: rest, bindings =>
      match attempt fact [] with
      | (true, found) => (true, bindings ++ found)
      | (false, _) => testAny attempt rest bindings

mutual
/-- Testing a fact while bindings are collected: a match appends what it binds,
and without one the bindings stay as they were. The children of a group collect
in a list of their own, which is handed over when all of them have passed. -/
def test (isWildcard : String → Bool) : Condition → Fact → Bindings → Bool × Bindings
  | group wanted conditions, .group found children, bindings =>
      if found = wanted then
        match testAll isWildcard conditions children [] with
        | (true, collected) => (true, bindings ++ collected)
        | (false, _) => (false, bindings)
      else (false, bindings)
  | group _ _, .leaf _ _ _, bindings => (false, bindings)
  | condition, fact, bindings => testLeaf isWildcard condition fact bindings

/-- The conditions one after the other, up to the first that no fact passes. -/
def testAll (isWildcard : String → Bool) :
    List Condition → List Fact → Bindings → Bool × Bindings
  | [], _, collected => (true, collected)
  | condition :: conditions, facts, collected =>
      match testAny (test isWildcard condition) facts collected with
      | (true, collected) => testAll isWildcard conditions facts collected
      | (false, collected) => (false, collected)
end

end Condition

end RuleNet.Rule
