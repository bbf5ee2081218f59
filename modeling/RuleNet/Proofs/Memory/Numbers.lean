import RuleNet.Memory.Load
import RuleNet.Proofs.Json.RoundTrip

/-!
# Memories with one number

A memory whose only fact is a leaf with a number loads if and only if the number has
a value, and the leaf has this value then.

* `run_load_number`, `run_load_fault`: what loading makes of the number, and of the
  allocator.
-/

namespace RuleNet.Memory

open Json (EndsNumber IsNumber Literal writeString)

/-! ## Loading one number -/

/-- The members of a leaf with the given name and number, behind the opening bracket. -/
def leafMembers (name : String) (number rest : List Char) : List Char :=
  writeString "name".toList ++ ':' :: (writeString name.toList ++
    ',' :: (writeString "value".toList ++ ':' :: (number ++ '\x7d' :: rest)))

/-- The memory with one leaf of the given name, whose value is the given number. -/
def numberMemory (name : String) (number : List Char) : String :=
  String.ofList ('\x7b' :: (writeString "facts".toList ++
    ':' :: '[' :: '\x7b' :: leafMembers name number [']', '\x7d']))

section Loading

variable {number : List Char} {literal : Literal} {name : String}

theorem readNumber_append {rest : List Char} (written : IsNumber number literal)
    (ends : EndsNumber rest) :
    Json.readNumber (number ++ rest) = literal.value?.map fun n => (.number n, rest) := by
  rw [Json.readNumber, Json.scanNumber?_append written ends, Option.bind_eq_bind, Option.bind_some]
  dsimp only
  cases literal.value? <;> rfl

/-- The fact is there if the number has a value. -/
theorem readValue_leaf (written : IsNumber number literal) (name : String) (rest : List Char)
    (fuel depth : Nat) :
    Json.readValue (fuel + 4) (depth + 1) ('\x7b' :: leafMembers name number rest) =
      literal.value?.map fun n =>
        (.object [("name", .string name), ("value", .number n)], rest) := by
  have ends : EndsNumber ('\x7d' :: rest) := Json.endsNumber_of_head rest (by simp)
  have named : Json.readValue (fuel + 2) depth (writeString name.toList ++
      ',' :: (writeString "value".toList ++ ':' :: (number ++ '\x7d' :: rest))) =
        some (.string name,
          ',' :: (writeString "value".toList ++ ':' :: (number ++ '\x7d' :: rest))) := by
    simp [writeString, Json.readValue, Text.isLayout, Json.readString_content]
  have valued : Json.readValue (fuel + 1) depth (number ++ '\x7d' :: rest) =
      literal.value?.map fun n => (.number n, '\x7d' :: rest) := by
    obtain ⟨c, more, rfl, starts⟩ := written.exists_cons
    rw [List.cons_append, Json.readValue_numeral starts, ← List.cons_append,
      readNumber_append written ends]
  unfold leafMembers
  rw [Json.readValue_object rfl, Json.readMembers_next "name" named]
  cases value : literal.value? with
  | none =>
    rw [value] at valued
    rw [Json.readMembers_fault "value" valued]
    rfl
  | some n =>
    rw [value] at valued
    rw [Json.readMembers_last "value" valued]
    rfl

theorem run_decodeFact_number {n : Json.Numeral} {value : Value}
    (decoded : decodeValue? (.number n) = some value) (name : String) (allocator : Allocator) :
    (decodeFact (.object [("name", .string name), ("value", .number n)])).run allocator =
      (some (.leaf allocator.fresh.1 name value), allocator.fresh.2) := by
  simp [decodeFact, decodeLeaf, decodeLeafMembers, LeafParts.read, LeafParts.finish, decodeName?,
    decoded, Attempt.ofOption, Attempt.run, bind, pure]

/-- The steps for a leaf are enough. -/
theorem readValue_fuelFor (written : IsNumber number literal) (name : String) (rest : List Char) :
    Json.readValue (Json.fuelFor ('\x7b' :: leafMembers name number rest)) factDepth
        ('\x7b' :: leafMembers name number rest) =
      literal.value?.map fun n => (.object [("name", .string name), ("value", .number n)], rest) :=
  readValue_leaf written name rest (2 * (leafMembers name number rest).length) 124

theorem run_readFacts_number (written : IsNumber number literal) {n : Json.Numeral} {value : Value}
    (found : literal.value? = some n) (decoded : decodeValue? (.number n) = some value)
    (fuel : Nat) (rest : List Char) (allocator : Allocator) :
    (readFacts (fuel + 1) ('\x7b' :: leafMembers name number (']' :: rest))).run allocator =
      (some ([.leaf allocator.fresh.1 name value], rest), allocator.fresh.2) := by
  have read := readValue_fuelFor written name (']' :: rest)
  rw [found, Option.map_some] at read
  rw [readFacts]
  simp [Attempt.ofOption, Attempt.run, bind, pure, read, run_decodeFact_number decoded,
    Json.expect?, Text.isLayout]

theorem run_readFacts_fault (written : IsNumber number literal) (fault : literal.value? = none)
    (fuel : Nat) (rest : List Char) (allocator : Allocator) :
    (readFacts (fuel + 1) ('\x7b' :: leafMembers name number (']' :: rest))).run allocator =
      (none, allocator) := by
  have read := readValue_fuelFor written name (']' :: rest)
  rw [fault, Option.map_none] at read
  rw [readFacts]
  simp [Attempt.ofOption, Attempt.run, bind, read]

/-- The memory loads as its list of facts does. -/
theorem run_load_of_readFacts {result : Option (List Fact)} {allocator after : Allocator}
    (read : ∀ fuel rest,
      (readFacts (fuel + 1) ('\x7b' :: leafMembers name number (']' :: rest))).run allocator =
        (result.map fun facts => (facts, rest), after)) :
    (WorkingMemory.load (numberMemory name number)).run allocator =
      (result.map fun facts => ⟨facts⟩, after) := by
  have list :
      (readFactList ('[' :: '\x7b' :: leafMembers name number [']', '\x7d'])).run allocator =
        (result.map fun facts => (facts, ['\x7d']), after) := by
    have facts := read (leafMembers name number [']', '\x7d']).length ['\x7d']
    simpa [readFactList, Json.expect?, Text.isLayout, Attempt.ofOption, Attempt.run, bind]
      using facts
  have document (fuel : Nat) : (readDocumentMembers (fuel + 1) none (writeString "facts".toList ++
      ':' :: '[' :: '\x7b' :: leafMembers name number [']', '\x7d'])).run allocator =
        (result.map fun facts => (facts, []), after) := by
    rw [readDocumentMembers, Json.readKey_write]
    cases result <;>
      simp [readDocumentMember, Attempt.ofOption, Attempt.run, bind, pure, list, Json.expect?,
        Text.isLayout]
  have whole : (readDocument (numberMemory name number).toList).run allocator =
      (result.map fun facts => (facts, []), after) := by
    rw [numberMemory, String.toList_ofList]
    exact document _
  rw [WorkingMemory.load]
  cases result <;> simp [Attempt.run, bind, pure, whole]

/-- A number that has a value loads as a leaf with this value. -/
theorem run_load_number (written : IsNumber number literal) {n : Json.Numeral} {value : Value}
    (found : literal.value? = some n) (decoded : decodeValue? (.number n) = some value)
    (name : String) (allocator : Allocator) :
    (WorkingMemory.load (numberMemory name number)).run allocator =
      (some ⟨[.leaf allocator.fresh.1 name value]⟩, allocator.fresh.2) :=
  @run_load_of_readFacts _ _ (some [.leaf allocator.fresh.1 name value]) _ _ fun fuel rest =>
    run_readFacts_number written found decoded fuel rest allocator

/-- A number without a value does not load. -/
theorem run_load_fault (written : IsNumber number literal) (fault : literal.value? = none)
    (name : String) (allocator : Allocator) :
    (WorkingMemory.load (numberMemory name number)).run allocator = (none, allocator) :=
  @run_load_of_readFacts _ _ none _ _ fun fuel rest =>
    run_readFacts_fault written fault fuel rest allocator

end Loading

end RuleNet.Memory
