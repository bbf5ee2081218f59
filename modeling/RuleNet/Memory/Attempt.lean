import RuleNet.Memory.Fact

/-!
# Attempts to make facts

Making a fact can take fresh identifiers and reserve given ones, and it can
fail. An *attempt* says which of this happens in which order; `run` carries it
out on an allocator. What an attempt did to the allocator is never undone: it
stays when the attempt fails, and an alternative goes on from there.
-/

namespace RuleNet.Memory

/-- What is done to make a value, step by step. -/
inductive Attempt : Type → Type 1
  /-- The value is at hand. -/
  | succeed {α : Type} (a : α) : Attempt α
  /-- There is no value. -/
  | fail {α : Type} : Attempt α
  /-- A fresh identifier is taken. -/
  | fresh : Attempt FactId
  /-- An identifier that came from outside is reserved. -/
  | reserve (id : FactId) : Attempt FactId
  /-- One attempt, and if it succeeds the next one. -/
  | andThen {α β : Type} (first : Attempt α) (next : α → Attempt β) : Attempt β
  /-- One attempt, and if it fails the other one. -/
  | orElse {α : Type} (first second : Attempt α) : Attempt α

namespace Attempt

/-- The value that an attempt makes, if it succeeds, and the allocator after it. -/
def run : {α : Type} → Attempt α → Allocator → Option α × Allocator
  | _, succeed a, allocator => (some a, allocator)
  | _, fail, allocator => (none, allocator)
  | _, fresh, allocator => (some allocator.fresh.1, allocator.fresh.2)
  | _, reserve id, allocator => (some id, allocator.reserve id)
  | _, andThen first next, allocator =>
      match first.run allocator with
      | (some a, allocator) => (next a).run allocator
      | (none, allocator) => (none, allocator)
  | _, orElse first second, allocator =>
      match first.run allocator with
      | (some a, allocator) => (some a, allocator)
      | (none, allocator) => second.run allocator

instance {α : Type} : CoeFun (Attempt α) fun _ => Allocator → Option α × Allocator := ⟨run⟩

instance : Monad Attempt where
  pure := succeed
  bind := andThen

/-- The attempt for a value that may be missing. -/
def ofOption {α : Type} : Option α → Attempt α
  | some a => succeed a
  | none => fail

end Attempt

/-- A leaf with a fresh identifier. -/
def Fact.newLeaf (name : String) (value : Value) : Attempt Fact := do
  let id ← Attempt.fresh
  return .leaf id name value

end RuleNet.Memory
