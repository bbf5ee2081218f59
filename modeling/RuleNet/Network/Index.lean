import RuleNet.Network.Node

/-!
# The index of structural hashes

The index lists the nodes with a given hash, oldest first. Different elements
can share a hash, so a hash leads to candidates, not to one node.
-/

namespace RuleNet.Network

open Rule (Key)

/-- Nodes by the hash of their key, in the order the hashes came up. -/
structure KeyIndex where
  buckets : List (UInt64 × List NodeId) := []
deriving Inhabited, Repr

namespace KeyIndex

/-- A node is added to the bucket of its hash, at the end. -/
def insertInto (hash : UInt64) (id : NodeId) :
    List (UInt64 × List NodeId) → List (UInt64 × List NodeId)
  | [] => [(hash, [id])]
  | (other, ids) :: rest =>
      if other = hash then (other, ids ++ [id]) :: rest
      else (other, ids) :: insertInto hash id rest

/-- The index with a node registered under its key. -/
def insert (index : KeyIndex) (key : Key) (id : NodeId) : KeyIndex :=
  ⟨insertInto key.hash id index.buckets⟩

/-- The nodes registered under a hash, oldest first. -/
def candidates (index : KeyIndex) (hash : UInt64) : List NodeId :=
  (index.buckets.lookup hash).getD []

/-- The number of different hashes. -/
def size (index : KeyIndex) : Nat := index.buckets.length

/-- No node is registered. -/
def isEmpty (index : KeyIndex) : Bool := index.buckets.isEmpty

@[simp] theorem candidates_empty (hash : UInt64) : candidates {} hash = [] := rfl

/-- Registering a node changes the candidates of its own hash and no others. -/
theorem candidates_insert (index : KeyIndex) (key : Key) (id : NodeId) (hash : UInt64) :
    (index.insert key id).candidates hash =
      if hash = key.hash then index.candidates hash ++ [id] else index.candidates hash := by
  obtain ⟨buckets⟩ := index
  simp only [insert, candidates]
  induction buckets with
  | nil =>
    by_cases same : hash = key.hash
    · simp [insertInto, same]
    · have differ : (hash == key.hash) = false := by simpa using same
      simp [insertInto, same, List.lookup_cons, differ]
  | cons bucket rest ih =>
    obtain ⟨other, ids⟩ := bucket
    by_cases found : other = key.hash
    · subst found
      by_cases same : hash = key.hash
      · simp [insertInto, same]
      · have differ : (hash == key.hash) = false := by simpa using same
        simp [insertInto, same, List.lookup_cons, differ]
    · by_cases here : hash = other
      · subst here
        simp [insertInto, found]
      · have differ : (hash == other) = false := by simpa using here
        simp only [insertInto, found, if_false, List.lookup_cons, differ]
        exact ih

end KeyIndex

end RuleNet.Network
