import RuleNet.Memory.Allocator
import RuleNet.Number.Shortest

/-!
# Facts and working memories

A fact is a leaf, which carries a typed value and an identifier, or a group of
facts. A working memory is the list of facts that rules are matched against.

Equality of facts (`Fact.same`) is equality of names, identifiers and values,
where floating-point numbers are compared as numbers: the zeros are equal and
a NaN differs from itself.
-/

namespace RuleNet.Memory

open Number (Binary64)

/-! ## Values -/

/-- The value of a leaf fact. -/
inductive Value where
  | bool (b : Bool)
  | int (n : Int64)
  | float (x : Binary64)
  | string (s : String)
deriving DecidableEq, Inhabited, Repr

namespace Value

/-- The name of the value's type. -/
def typeName : Value → String
  | bool _ => "bool"
  | int _ => "int"
  | float _ => "float"
  | string _ => "string"

/-- The value as people read it. -/
def display : Value → String
  | bool b => if b then "true" else "false"
  | int n => String.ofList (Number.writeSigned n.toInt)
  | float x => String.ofList (Number.FloatFormat.plain.write x)
  | string s => s

/-- Values of one type that are equal. -/
def same : Value → Value → Bool
  | bool a, bool b => a == b
  | int a, int b => a == b
  | float a, float b => a.same b
  | string a, string b => a == b
  | _, _ => false

end Value

/-! ## Facts -/

/-- A fact of a working memory. -/
inductive Fact where
  /-- A named value. -/
  | leaf (id : FactId) (name : String) (value : Value)
  /-- A named list of facts. -/
  | group (name : String) (children : List Fact)
deriving Inhabited, Repr

namespace Fact

/-- The name of a fact. -/
def name : Fact → String
  | leaf _ name _ => name
  | group name _ => name

/-- The identifier of a leaf. -/
def id? : Fact → Option FactId
  | leaf id _ _ => some id
  | group _ _ => none

/-- A fact with one more child at the end; a leaf stays as it is. -/
def addChild : Fact → Fact → Fact
  | leaf id name value, _ => leaf id name value
  | group name children, child => group name (children ++ [child])

mutual
/-- The first leaf with the given name, looking into groups on the way. -/
def findLeaf? (wanted : String) : Fact → Option (FactId × Value)
  | leaf id name value => if name = wanted then some (id, value) else none
  | group _ children => findLeafIn? wanted children

/-- The first leaf with the given name in a list of facts. -/
def findLeafIn? (wanted : String) : List Fact → Option (FactId × Value)
  | [] => none
  | fact :: rest => (findLeaf? wanted fact).or (findLeafIn? wanted rest)
end

mutual
/-- The identifiers of all leaves in a fact, in document order. -/
def ids : Fact → List FactId
  | leaf id _ _ => [id]
  | group _ children => idsIn children

/-- The identifiers of all leaves in a list of facts. -/
def idsIn : List Fact → List FactId
  | [] => []
  | fact :: rest => ids fact ++ idsIn rest
end

theorem mem_idsIn {facts : List Fact} {id : FactId} :
    id ∈ idsIn facts ↔ ∃ fact ∈ facts, id ∈ fact.ids := by
  induction facts with
  | nil => simp [idsIn]
  | cons fact rest ih => simp [idsIn, ih]

mutual
/-- Equal facts. -/
def same : Fact → Fact → Bool
  | leaf id name value, leaf id' name' value' => id == id' && name == name' && value.same value'
  | group name children, group name' children' => name == name' && sameAll children children'
  | _, _ => false

/-- Equal lists of facts. -/
def sameAll : List Fact → List Fact → Bool
  | [], [] => true
  | fact :: rest, fact' :: rest' => same fact fact' && sameAll rest rest'
  | _, _ => false
end

/-! ### Induction -/

mutual
/-- What holds of leaves, and of a group whenever it holds of its children, holds of every fact. -/
@[elab_as_elim]
theorem induction {motive : Fact → Prop} (onLeaf : ∀ id name value, motive (leaf id name value))
    (onGroup : ∀ name children, (∀ child ∈ children, motive child) → motive (group name children)) :
    ∀ fact, motive fact
  | leaf id name value => onLeaf id name value
  | group name children => onGroup name children (inductionAll onLeaf onGroup children)

/-- The same for every fact of a list. -/
theorem inductionAll {motive : Fact → Prop} (onLeaf : ∀ id name value, motive (leaf id name value))
    (onGroup : ∀ name children, (∀ child ∈ children, motive child) → motive (group name children)) :
    ∀ facts : List Fact, ∀ fact ∈ facts, motive fact
  | first :: rest, fact, member => by
      cases member with
      | head => exact induction onLeaf onGroup first
      | tail _ later => exact inductionAll onLeaf onGroup rest fact later
end

end Fact

/-! ## Working memories -/

/-- The facts that rules are matched against, in insertion order. -/
structure WorkingMemory where
  facts : List Fact := []
deriving Inhabited, Repr

namespace WorkingMemory

/-- The memory with one more fact at the end. -/
def insert (memory : WorkingMemory) (fact : Fact) : WorkingMemory :=
  ⟨memory.facts ++ [fact]⟩

/-- The number of facts at the top level. -/
def size (memory : WorkingMemory) : Nat := memory.facts.length

/-- There are no facts. -/
def isEmpty (memory : WorkingMemory) : Bool := memory.facts.isEmpty

/-- Equal memories. -/
def same (memory other : WorkingMemory) : Bool := Fact.sameAll memory.facts other.facts

end WorkingMemory

end RuleNet.Memory
