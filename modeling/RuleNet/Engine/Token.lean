import RuleNet.Rule.Matching

/-!
# Activations

An activation, also called a token, is what one match contributes: the facts
at the top level of the memory that took part, and the identifiers of the leaf
facts that were bound on the way. A fact is known by its position in the
memory, so equal facts stay apart.
-/

namespace RuleNet.Engine

open Memory (Fact FactId)
open Rule (Bindings)

/-- A fact at the top level of a memory. -/
structure Placed where
  position : Nat
  fact : Fact
deriving Inhabited, Repr

/-- The facts of a list with their positions. -/
def place (facts : List Fact) : List Placed :=
  facts.zipIdx.map fun (fact, position) => ⟨position, fact⟩

/-- One activation of a node. -/
structure Token where
  /-- The facts, those of the left operand first. -/
  facts : List Placed := []
  /-- The bound leaf facts, in match order. -/
  bindings : Bindings := []
deriving Inhabited, Repr

namespace Token

/-- The activation of a negation, without facts and bindings. -/
def empty : Token := {}

/-- The activation by one fact. -/
def single (fact : Placed) (bindings : Bindings) : Token := ⟨[fact], bindings⟩

/-- Two activations together. -/
def merge (left right : Token) : Token :=
  ⟨left.facts ++ right.facts, left.bindings ++ right.bindings⟩

/-- There are neither facts nor bindings. -/
def isEmpty (token : Token) : Bool := token.facts.isEmpty && token.bindings.isEmpty

/-- The identifiers of the facts that are leaves. -/
def factIds (token : Token) : List FactId := token.facts.filterMap fun placed => placed.fact.id?

@[simp] theorem merge_empty_left (token : Token) : empty.merge token = token := rfl

@[simp] theorem merge_empty_right (token : Token) : token.merge empty = token := by
  simp [merge, empty]

end Token

end RuleNet.Engine
