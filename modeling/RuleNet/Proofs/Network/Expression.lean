import Mathlib.Data.List.Forall2
import RuleNet.Network.Plan
import RuleNet.Proofs.Rule.CanonicalText

/-!
# Condition expressions and their plans

A condition expression is made of operator elements and, below them, the roots
of patterns. These are the elements that get a key, a plan and a node; they are
called the subexpressions here. What lies below the root of a pattern is none.

* `Plan.ofElement_inv`: an expression has a plan when it is a pattern with a
  condition, or an operator with as many planned children as it takes.
* `Plan.sound_of_ofElement`: every join of such a plan has as many operands as
  its operator takes, all of them with shorter texts than its own.
-/

namespace RuleNet.Network

open Markup (Element)
open Rule (Condition Key Operator RuleError)

/-! ## Paired lists -/

/-- In a paired list, everything on the right has a partner on the left. -/
theorem mem_right_of_forall₂ {α β : Type} {R : α → β → Prop} {as : List α} {bs : List β}
    (paired : List.Forall₂ R as bs) {b : β} (member : b ∈ bs) : ∃ a ∈ as, R a b := by
  induction paired with
  | nil => cases member
  | cons related _ ih =>
    cases member with
    | head => exact ⟨_, List.mem_cons_self, related⟩
    | tail _ later =>
      obtain ⟨a, inside, related⟩ := ih later
      exact ⟨a, List.mem_cons_of_mem _ inside, related⟩

/-- In a paired list, everything on the left has a partner on the right. -/
theorem mem_left_of_forall₂ {α β : Type} {R : α → β → Prop} {as : List α} {bs : List β}
    (paired : List.Forall₂ R as bs) {a : α} (member : a ∈ as) : ∃ b ∈ bs, R a b :=
  mem_right_of_forall₂ paired.flip member

/-- A list whose elements all have partners can be paired. -/
theorem exists_forall₂ {α β : Type} {R : α → β → Prop} {as : List α}
    (each : ∀ a ∈ as, ∃ b, R a b) : ∃ bs, List.Forall₂ R as bs := by
  induction as with
  | nil => exact ⟨[], .nil⟩
  | cons a rest ih =>
    obtain ⟨b, related⟩ := each a List.mem_cons_self
    obtain ⟨bs, paired⟩ := ih fun a member => each a (List.mem_cons_of_mem _ member)
    exact ⟨b :: bs, .cons related paired⟩

theorem forall₂_of_mem {α β : Type} {R S : α → β → Prop} {as : List α} {bs : List β}
    (paired : List.Forall₂ R as bs) (each : ∀ a ∈ as, ∀ b ∈ bs, R a b → S a b) :
    List.Forall₂ S as bs := by
  induction paired with
  | nil => exact .nil
  | cons related _ ih =>
    refine .cons (each _ List.mem_cons_self _ List.mem_cons_self related) (ih ?_)
    exact fun a inside b inside' =>
      each a (List.mem_cons_of_mem _ inside) b (List.mem_cons_of_mem _ inside')

theorem map_eq_map_of_forall₂ {α β γ : Type} {f : α → γ} {g : β → γ} {as : List α} {bs : List β}
    (paired : List.Forall₂ (fun a b => f a = g b) as bs) : as.map f = bs.map g := by
  induction paired with
  | nil => rfl
  | cons same _ ih => rw [List.map_cons, List.map_cons, same, ih]

/-! ## Subexpressions -/

mutual
/-- The operator elements and the roots of patterns of a condition expression. -/
def subexpressions : Element → List Element
  | ⟨name, attributes, text, children⟩ =>
      ⟨name, attributes, text, children⟩ ::
        match Operator.ofTag? name with
        | some _ => subexpressionsAll children
        | none => []

/-- The subexpressions of several expressions. -/
def subexpressionsAll : List Element → List Element
  | [] => []
  | element :: rest => subexpressions element ++ subexpressionsAll rest
end

theorem self_mem_subexpressions (element : Element) : element ∈ subexpressions element := by
  obtain ⟨name, attributes, text, children⟩ := element
  rw [subexpressions]
  exact List.mem_cons_self

theorem mem_subexpressionsAll {elements : List Element} {part : Element} :
    part ∈ subexpressionsAll elements ↔ ∃ element ∈ elements, part ∈ subexpressions element := by
  induction elements with
  | nil => simp [subexpressionsAll]
  | cons element rest ih => simp [subexpressionsAll, ih]

/-- The subexpressions of an operand are subexpressions of the operator element. -/
theorem subexpressions_operand {element child : Element} {operator : Operator}
    (tag : Operator.ofTag? element.name = some operator) (member : child ∈ element.children) :
    subexpressions child ⊆ subexpressions element := by
  obtain ⟨name, attributes, text, children⟩ := element
  intro part inChild
  rw [subexpressions, show Operator.ofTag? name = some operator from tag]
  exact List.mem_cons_of_mem _ (mem_subexpressionsAll.mpr ⟨child, member, inChild⟩)

/-! ## Planned expressions -/

namespace Plan

theorem ofElements_eq_ok {elements : List Element} {plans : List Plan}
    (planned : ofElements elements = .ok plans) :
    List.Forall₂ (fun element plan => ofElement element = .ok plan) elements plans := by
  induction elements generalizing plans with
  | nil =>
    cases planned
    exact .nil
  | cons element rest ih =>
    rw [ofElements] at planned
    cases first : ofElement element with
    | error why => rw [first] at planned; cases planned
    | ok plan =>
      cases others : ofElements rest with
      | error why => rw [first, others] at planned; cases planned
      | ok plans =>
        rw [first, others] at planned
        cases planned
        exact .cons first (ih others)

/-- A planned expression is a pattern with a condition, or an operator with as
many planned operands as it takes. -/
theorem ofElement_inv {element : Element} {plan : Plan} (planned : ofElement element = .ok plan) :
    (∃ condition, Operator.ofTag? element.name = none ∧
      Condition.ofElement element = .ok condition ∧
      plan = .pattern (Key.ofElement element) condition) ∨
    (∃ operator operands, Operator.ofTag? element.name = some operator ∧
      element.children.length = operator.arity ∧
      List.Forall₂ (fun child operand => ofElement child = .ok operand)
        element.children operands ∧
      plan = .join (Key.ofElement element) operator operands) := by
  obtain ⟨name, attributes, text, children⟩ := element
  rw [ofElement] at planned
  cases tag : Operator.ofTag? name with
  | none =>
    rw [tag] at planned
    cases built : Condition.ofElement ⟨name, attributes, text, children⟩ with
    | error why => rw [built] at planned; cases planned
    | ok condition =>
      rw [built] at planned
      cases planned
      exact .inl ⟨condition, rfl, rfl, rfl⟩
  | some operator =>
    rw [tag] at planned
    by_cases count : children.length = operator.arity
    · simp only [count, if_true] at planned
      cases all : ofElements children with
      | error why => rw [all] at planned; cases planned
      | ok operands =>
        rw [all] at planned
        cases planned
        exact .inr ⟨operator, operands, rfl, count, ofElements_eq_ok all, rfl⟩
    · simp only [count, if_false] at planned
      cases planned

theorem key_of_ofElement {element : Element} {plan : Plan}
    (planned : ofElement element = .ok plan) : plan.key = Key.ofElement element := by
  rcases ofElement_inv planned with ⟨_, _, _, rfl⟩ | ⟨_, _, _, _, _, rfl⟩ <;> rfl

end Plan

/-! ## Sound plans -/

/-- The hash of the key is the one of its text. -/
def Genuine (key : Key) : Prop := key = Key.ofCanonical key.canonical

theorem genuine_ofElement (element : Element) : Genuine (Key.ofElement element) := rfl

/-- Genuine keys with one text are equal. -/
theorem Genuine.ext {key other : Key} (genuine : Genuine key) (genuine' : Genuine other)
    (same : key.canonical = other.canonical) : key = other := by
  rw [genuine, genuine', same]

namespace Plan

/-- The joins of the plan have as many operands as their operators take, the
texts of the operands are shorter, and all keys are genuine. -/
inductive Sound : Plan → Prop
  | pattern {key : Key} {condition : Condition} : Genuine key → Sound (.pattern key condition)
  | join {key : Key} {operator : Operator} {operands : List Plan} :
      Genuine key → operands.length = operator.arity →
      (∀ operand ∈ operands, operand.key.canonical.length < key.canonical.length) →
      (∀ operand ∈ operands, Sound operand) → Sound (.join key operator operands)

theorem Sound.genuine {plan : Plan} (sound : plan.Sound) : Genuine plan.key := by
  cases sound with
  | pattern genuine => exact genuine
  | join genuine _ _ _ => exact genuine

/-- The plan of an expression is sound. -/
theorem sound_of_ofElement {element : Element} {plan : Plan}
    (planned : ofElement element = .ok plan) : plan.Sound := by
  induction element using Element.induction generalizing plan with
  | step element ih =>
    rcases ofElement_inv planned with ⟨_, _, _, rfl⟩ | ⟨operator, operands, _, count, all, rfl⟩
    · exact .pattern (genuine_ofElement element)
    · refine .join (genuine_ofElement element) (all.length_eq ▸ count) ?_ ?_
      · intro operand member
        obtain ⟨child, inside, planned⟩ := mem_right_of_forall₂ all member
        rw [key_of_ofElement planned]
        exact Rule.canonical_length_lt inside
      · intro operand member
        obtain ⟨child, inside, planned⟩ := mem_right_of_forall₂ all member
        exact ih child inside planned

end Plan

end RuleNet.Network
