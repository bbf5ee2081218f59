import RuleNet.Proofs.Network.Expression
import RuleNet.Proofs.Rule.Grammar
import RuleNet.Proofs.Rule.Meaning

/-!
# Conditions that can be satisfied

No fact satisfies a condition with an empty range among its leaves. An empty range
is all that can stand in the way: otherwise a fact with the shape of the condition
(`sample`) satisfies it, whichever names are wildcards. The ranges that are read from
a text are never empty.

* `exists_accepted_iff`: a numeric leaf accepts a value when its bounds are in order.
* `exists_satisfies_iff`: which conditions can be satisfied.
* `ofElement_satisfiable`: all conditions that elements define.
-/

namespace RuleNet.Rule.Condition

open Markup (Element)
open Memory (Fact FactId Value)
open Network (mem_left_of_forall₂ mem_right_of_forall₂)
open Number (Binary64)

variable {isWildcard : String → Bool} {condition leaf : Condition} {conditions : List Condition}
  {fact : Fact}

/-! ## Ranges -/

/-- The bounds of a numeric leaf condition are in order, and neither is a NaN. -/
inductive InOrder : Condition → Prop
  | int {name : String} {min max : Int64} : min ≤ max → InOrder (.int name min max)
  | float {name : String} {min max : Binary64} :
      min.isNaN = false → max.isNaN = false → min.le max = true → InOrder (.float name min max)
  | string {name literal : String} : InOrder (.string name literal)

/-- A leaf condition accepts some value when its bounds are in order. -/
theorem exists_accepted_iff :
    (∃ value, condition.acceptsValue value = true) ↔ condition.InOrder := by
  constructor
  · rintro ⟨value, accepted⟩
    unfold acceptsValue at accepted
    split at accepted
    · rw [Bool.and_eq_true, decide_eq_true_eq, decide_eq_true_eq] at accepted
      exact .int (Int64.le_trans accepted.1 accepted.2)
    · rw [Bool.and_eq_true] at accepted
      exact .float (Binary64.not_isNaN_of_le accepted.1).1 (Binary64.not_isNaN_of_le accepted.2).2
        (Binary64.le_trans accepted.1 accepted.2)
    · exact .string
    · cases accepted
  · intro ordered
    cases ordered with
    | @int _ min _ below => exact ⟨.int min, by simp [acceptsValue, below]⟩
    | @float _ min _ number _ below =>
      have lowest : min.le min = true := (Binary64.le_self_iff min).mpr number
      exact ⟨.float min, by rw [acceptsValue, lowest, below]; rfl⟩
    | @string _ literal => exact ⟨.string literal, by simp [acceptsValue]⟩

/-! ## Leaves -/

theorem mem_leavesAll :
    leaf ∈ leavesAll conditions ↔ ∃ child ∈ conditions, leaf ∈ child.leaves := by
  induction conditions with
  | nil => simp [leavesAll]
  | cons first rest ih => simp [leavesAll, ih]

/-! ## A fact for a condition -/

mutual
/-- A fact with the shape of the condition: its names, and at each leaf the lower
bound or the string. -/
def sample : Condition → Fact
  | group name conditions => .group name (sampleAll conditions)
  | int name min _ => .leaf 0 name (.int min)
  | float name min _ => .leaf 0 name (.float min)
  | string name literal => .leaf 0 name (.string literal)

/-- The facts for several conditions. -/
def sampleAll : List Condition → List Fact
  | [] => []
  | condition :: rest => sample condition :: sampleAll rest
end

theorem sampleAll_eq_map (conditions : List Condition) :
    sampleAll conditions = conditions.map sample := by
  induction conditions with
  | nil => rfl
  | cons condition rest ih => rw [sampleAll, ih, List.map_cons]

/-- The sample of a condition satisfies it, if no range is in the way. -/
theorem satisfies_sample (ordered : ∀ leaf ∈ condition.leaves, leaf.InOrder) :
    Satisfies isWildcard condition condition.sample := by
  induction condition using Condition.induction with
  | onLeaf condition single =>
    rw [leaves_of_not_isGroup single] at ordered
    cases ordered condition List.mem_cons_self with
    | int below => exact .int (.inr rfl) (Int64.le_refl _) below
    | float number _ below => exact .float (.inr rfl) ((Binary64.le_self_iff _).mpr number) below
    | string => exact .string (.inr rfl)
  | onGroup name conditions ih =>
    rw [sample, sampleAll_eq_map]
    refine .group fun child member => .intro (List.mem_map_of_mem member) (ih child member ?_)
    exact fun leaf inside => ordered leaf (mem_leavesAll.mpr ⟨child, member, inside⟩)

/-- A condition that a leaf satisfies accepts its value. -/
theorem acceptsValue_of_satisfies {id : FactId} {name : String} {value : Value}
    (satisfied : Satisfies isWildcard condition (.leaf id name value)) :
    condition.acceptsValue value = true := by
  cases satisfied with
  | int _ lower upper => simp [acceptsValue, lower, upper]
  | float _ lower upper => simp [acceptsValue, lower, upper]
  | string => simp [acceptsValue]

/-- A fact satisfies a condition only if all ranges are in order. -/
theorem inOrder_of_satisfies (satisfied : Satisfies isWildcard condition fact)
    (inside : leaf ∈ condition.leaves) : leaf.InOrder := by
  obtain ⟨bound, matched⟩ := Option.isSome_iff_exists.mp (isSome_match?_iff.mpr satisfied)
  -- Every leaf of the condition is satisfied by the leaf fact that it binds.
  have found := foundInside_of_binds (match?_eq_some_iff.mp matched)
  obtain ⟨id, -, own, -, named, satisfied'⟩ := mem_left_of_forall₂ found inside
  cases own with
  | leaf => exact exists_accepted_iff.mp ⟨_, acceptsValue_of_satisfies satisfied'⟩
  | group => cases named

/-- A condition can be satisfied exactly if all its ranges are in order. The wildcards
do not matter. -/
theorem exists_satisfies_iff :
    (∃ fact, Satisfies isWildcard condition fact) ↔ ∀ leaf ∈ condition.leaves, leaf.InOrder := by
  constructor
  · rintro ⟨fact, satisfied⟩ leaf inside
    exact inOrder_of_satisfies satisfied inside
  · exact fun ordered => ⟨condition.sample, satisfies_sample ordered⟩

/-! ## Conditions of elements -/

theorem inOrder_of_declares {name typeName : String} {text : Option String}
    (declares : Declares name typeName text condition) : condition.InOrder := by
  cases declares with
  | int _ bounded =>
    obtain ⟨-, -, -, ordered⟩ := bounded
    exact .int (of_decide_eq_true ordered)
  | float _ bounded =>
    obtain ⟨-, -, -, ordered⟩ := bounded
    have numbers := Binary64.not_isNaN_of_le ordered
    exact .float numbers.1 numbers.2 ordered
  | string => exact .string

/-- The bounds that an element gives at any depth are in order. -/
theorem inOrder_of_ofElement {element : Element} (accepted : ofElement element = .ok condition)
    (inside : leaf ∈ condition.leaves) : leaf.InOrder := by
  induction condition using Condition.induction generalizing element with
  | onLeaf condition single =>
    rw [leaves_of_not_isGroup single, List.mem_singleton] at inside
    rcases ofElement_inv accepted with ⟨typeName, -, declares⟩ | ⟨children, -, -, rfl⟩
    · exact inside ▸ inOrder_of_declares declares
    · cases single
  | onGroup name conditions ih =>
    obtain ⟨child, member, below⟩ := mem_leavesAll.mp inside
    rcases ofElement_inv accepted with ⟨typeName, -, declares⟩ | ⟨children, -, each, same⟩
    · cases declares
    · cases same
      obtain ⟨source, -, made⟩ := mem_right_of_forall₂ each member
      exact ih child member made below

/-- The numeric ranges of a condition that an element defines, at whatever depth, have
their bounds in order, none of them a NaN, and some number between them. One fact
satisfies the condition whichever names are wildcards, and whatever has been bound
before. -/
theorem ofElement_satisfiable {element : Element}
    (accepted : ofElement element = .ok condition) :
    (∀ leaf ∈ condition.leaves,
      leaf.InOrder ∧ ∃ value, leaf.acceptsValue value = true) ∧
    ∃ fact, ∀ isWildcard bindings, (condition.test isWildcard fact bindings).1 = true := by
  have ordered : ∀ leaf ∈ condition.leaves, leaf.InOrder := fun leaf inside =>
    inOrder_of_ofElement accepted inside
  constructor
  · exact fun leaf inside =>
      ⟨ordered leaf inside, exists_accepted_iff.mpr (ordered leaf inside)⟩
  · refine ⟨condition.sample, fun isWildcard bindings => ?_⟩
    rcases test_decides isWildcard condition condition.sample with
      ⟨-, bound, -, -, -, passes⟩ | ⟨unsatisfied, -⟩
    · rw [passes]
    · exact absurd (satisfies_sample ordered) unsatisfied

/-- An integer range, a range between the infinities, a string leaf with a child, which
does not matter, and a group without children. -/
theorem ofElement_satisfiable_mixed :
    let element : Element := { name := "character", children := [
      { name := "stats", children := [
        { name := "hp", attributes := [("type", "int")], text := "-1 5" },
        { name := "speed", attributes := [("type", "float")], text := "-inf inf" }] },
      { name := "_", attributes := [("type", "string")], children := [{ name := "axe" }] },
      { name := "bag" }] }
    let leaves := [int "hp" (-1) 5, float "speed" ⟨0xFFF0000000000000⟩ ⟨0x7FF0000000000000⟩,
      string "_" ""]
    let condition :=
      group "character" [group "stats" (leaves.take 2), string "_" "", group "bag" []]
    ofElement element = .ok condition ∧ condition.leaves = leaves ∧
      (∀ leaf ∈ leaves, leaf.InOrder ∧ ∃ value, leaf.acceptsValue value = true) ∧
      ∃ fact, ∀ isWildcard bindings, (condition.test isWildcard fact bindings).1 = true := by
  intro element leaves condition
  have accepted : ofElement element = .ok condition := rfl
  obtain ⟨ranges, fact⟩ := ofElement_satisfiable accepted
  exact ⟨accepted, rfl, ranges, fact⟩

end RuleNet.Rule.Condition
