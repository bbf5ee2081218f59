import RuleNet.Memory.Dump
import RuleNet.Memory.Load
import RuleNet.Proofs.Json.RoundTrip

/-!
# Dumping and reloading a working memory

The dump of a memory is the compact form of a JSON value (`WorkingMemory.json`,
`dump_eq`). Without floating-point numbers, and with no more nesting than a
document may have, it loads as the same memory: a leaf is read as a leaf with
its identifier and the type of its value, a group fails to be read as a leaf
before anything is allocated for it.

* `run_decodeFact_json`: a fact is decoded from its JSON value, and the
  identifiers in it are reserved in document order.
* `run_readFacts_write`: so is a list of facts, from its written form.
* `load_dump`: a dumped memory loads from every state of the allocator.
-/

namespace RuleNet.Memory

open Json (EndsNumber ReadsBack endsNumber_of_head readKey_write readValue_write)

/-! ## The JSON value of a memory -/

/-- The JSON value for the value of a leaf. -/
def Value.json : Value → Json.Value
  | bool b => .bool b
  | int n => .number (.integer n.toInt)
  | float x => .number (.float x)
  | string s => .string s

namespace Fact

mutual
/-- The JSON value for a fact. -/
def json : Fact → Json.Value
  | leaf id name value =>
      .object [("id", .number (.integer id.toNat)), ("name", .string name), ("value", value.json)]
  | group name children =>
      .object [("name", .string name), ("children", .array (jsonAll children))]

/-- The JSON values for several facts. -/
def jsonAll : List Fact → List Json.Value
  | [] => []
  | fact :: rest => json fact :: jsonAll rest
end

mutual
/-- The values of all leaves in a fact, in document order. -/
def values : Fact → List Value
  | leaf _ _ value => [value]
  | group _ children => valuesIn children

/-- The values of all leaves in a list of facts. -/
def valuesIn : List Fact → List Value
  | [] => []
  | fact :: rest => values fact ++ valuesIn rest
end

theorem jsonAll_eq_map (facts : List Fact) : jsonAll facts = facts.map json := by
  induction facts with
  | nil => rfl
  | cons fact rest ih => rw [jsonAll, ih, List.map_cons]

theorem mem_valuesIn {facts : List Fact} {value : Value} :
    value ∈ valuesIn facts ↔ ∃ fact ∈ facts, value ∈ fact.values := by
  induction facts with
  | nil => simp [valuesIn]
  | cons fact rest ih => simp [valuesIn, ih]

end Fact

/-- The JSON value for a working memory. -/
def WorkingMemory.json (memory : WorkingMemory) : Json.Value :=
  .object [("facts", .array (Fact.jsonAll memory.facts))]

/-! ## The dump is its compact form -/

theorem Value.write_eq (value : Value) : value.write = value.json.write := by
  cases value <;> rfl

theorem Fact.writeMore_eq {facts : List Fact}
    (each : ∀ fact ∈ facts, fact.write = fact.json.write) :
    Fact.writeMore facts = Json.Value.writeMoreItems (jsonAll facts) := by
  induction facts with
  | nil => rfl
  | cons fact rest ih =>
    rw [writeMore, jsonAll, Json.Value.writeMoreItems, each fact List.mem_cons_self,
      ih fun fact member => each fact (List.mem_cons_of_mem _ member)]

theorem Fact.writeItems_eq {facts : List Fact}
    (each : ∀ fact ∈ facts, fact.write = fact.json.write) :
    Fact.writeItems facts = Json.Value.writeItems (jsonAll facts) := by
  cases facts with
  | nil => rfl
  | cons fact rest =>
    rw [writeItems, jsonAll, Json.Value.writeItems, each fact List.mem_cons_self,
      writeMore_eq fun fact member => each fact (List.mem_cons_of_mem _ member)]

theorem Fact.write_eq (fact : Fact) : fact.write = fact.json.write := by
  induction fact using Fact.induction with
  | onLeaf id name value =>
    have signed : Number.writeSigned id.toNat = Number.writeNatural id.toNat := by
      simp [Number.writeSigned]
    simp [write, writeKey, json, Json.Value.write, Json.Value.writeMembers,
      Json.Value.writeMoreMembers, Value.write_eq, signed]
  | onGroup name children ih =>
    simp [write, writeKey, json, Json.Value.write, Json.Value.writeMembers,
      Json.Value.writeMoreMembers, writeItems_eq ih]

/-- A memory is dumped as its JSON value. -/
theorem WorkingMemory.dump_eq (memory : WorkingMemory) :
    memory.dump = String.ofList memory.json.write := by
  simp [dump, writeKey, json, Json.Value.write, Json.Value.writeMembers,
    Json.Value.writeMoreMembers, Fact.writeItems_eq fun fact _ => fact.write_eq]

/-! ## Decoding -/

/-- Reserving identifiers one after the other. -/
theorem Allocator.reserveAll_append (allocator : Allocator) (ids more : List FactId) :
    allocator.reserveAll (ids ++ more) = (allocator.reserveAll ids).reserveAll more :=
  List.foldl_append

theorem decodeValue?_json {value : Value} (exact : ∀ x, value ≠ .float x) :
    decodeValue? value.json = some value := by
  cases value with
  | bool b => rfl
  | int n => simp [Value.json, decodeValue?]
  | float x => exact absurd rfl (exact x)
  | string s => rfl

theorem decodeId_json (id : FactId) :
    decodeId (.number (.integer id.toNat)) = Attempt.reserve id := by
  simp [decodeId]

theorem run_decodeLeaf_json {id : FactId} {name : String} {value : Value}
    (exact : ∀ x, value ≠ .float x) (allocator : Allocator) :
    (decodeLeaf (Fact.leaf id name value).json).run allocator =
      (some (.leaf id name value), allocator.reserve id) := by
  simp [Fact.json, decodeLeaf, decodeLeafMembers, LeafParts.read, LeafParts.finish, decodeName?,
    decodeId_json, decodeValue?_json exact, Attempt.ofOption, Attempt.run, bind, pure]

/-- Facts that are decoded one by one are decoded together. -/
theorem run_decodeFacts_json {facts : List Fact}
    (each : ∀ fact ∈ facts, ∀ allocator, (decodeFact fact.json).run allocator =
      (some fact, allocator.reserveAll fact.ids)) (allocator : Allocator) :
    (decodeFacts (Fact.jsonAll facts)).run allocator =
      (some facts, allocator.reserveAll (Fact.idsIn facts)) := by
  induction facts generalizing allocator with
  | nil => rfl
  | cons fact rest ih =>
    have others := ih fun fact member => each fact (List.mem_cons_of_mem _ member)
    simp [Fact.jsonAll, Fact.idsIn, decodeFacts, Attempt.run, each fact List.mem_cons_self, others,
      Allocator.reserveAll_append]

/-- A fact without floating-point numbers is decoded from its JSON value, and the
identifiers in it are reserved in document order. -/
theorem run_decodeFact_json {fact : Fact} (exact : ∀ value ∈ fact.values, ∀ x, value ≠ .float x)
    (allocator : Allocator) :
    (decodeFact fact.json).run allocator = (some fact, allocator.reserveAll fact.ids) := by
  induction fact using Fact.induction generalizing allocator with
  | onLeaf id name value =>
    show (Attempt.orElse (decodeLeaf (Fact.leaf id name value).json) _).run allocator = _
    rw [Attempt.run, run_decodeLeaf_json (exact value List.mem_cons_self)]
    rfl
  | onGroup name children ih =>
    have inner := run_decodeFacts_json fun child member =>
      ih child member fun value inside =>
        exact value (Fact.mem_valuesIn.mpr ⟨child, member, inside⟩)
    -- Read as a leaf, a group fails at its second member, and nothing is allocated.
    have noLeaf : (decodeLeaf (Fact.group name children).json).run allocator =
      (none, allocator) := rfl
    show (Attempt.orElse (decodeLeaf (Fact.group name children).json) _).run allocator = _
    rw [Attempt.run, noLeaf]
    simp [decodeGroupMembers, Attempt.run, inner, Fact.ids]

/-! ## Reading -/

theorem isExact_value {value : Value} (exact : ∀ x, value ≠ .float x) : value.json.IsExact := by
  cases value with
  | bool b => exact .bool b
  | int n =>
    have lower := Int64.le_toInt n
    have upper := Int64.toInt_lt n
    exact .integer ⟨by omega, by simp only [Json.Literal.wordMax]; omega⟩
  | float x => exact absurd rfl (exact x)
  | string s => exact .string s

/-- The numbers of a fact without floating-point numbers are integers. -/
theorem isExact_json {fact : Fact} (exact : ∀ value ∈ fact.values, ∀ x, value ≠ .float x) :
    fact.json.IsExact := by
  induction fact using Fact.induction with
  | onLeaf id name value =>
    have bound := id.toNat_lt
    have fits : Json.Value.Fits id.toNat :=
      ⟨by omega, by simp only [Json.Literal.wordMax]; omega⟩
    refine .object fun member inside => ?_
    simp at inside
    rcases inside with rfl | rfl | rfl
    · exact .integer fits
    · exact .string name
    · exact isExact_value (exact value List.mem_cons_self)
  | onGroup name children ih =>
    refine .object fun member inside => ?_
    simp at inside
    rcases inside with rfl | rfl
    · exact .string name
    · refine .array fun item member => ?_
      rw [Fact.jsonAll_eq_map] at member
      obtain ⟨child, here, rfl⟩ := List.mem_map.mp member
      exact ih child here fun value inside =>
        exact value (Fact.mem_valuesIn.mpr ⟨child, here, inside⟩)

/-- The fact is read back from its JSON value, and decoded. -/
def Reloads (fact : Fact) : Prop :=
  ReadsBack factDepth fact.json ∧ ∀ allocator : Allocator,
    (decodeFact fact.json).run allocator = (some fact, allocator.reserveAll fact.ids)

/-- Facts that reload one by one are read together. -/
theorem run_readFacts_write {fact : Fact} {facts : List Fact}
    (each : ∀ one ∈ fact :: facts, Reloads one) {fuel : Nat} (enough : facts.length ≤ fuel)
    (rest : List Char) (allocator : Allocator) :
    (readFacts (fuel + 1) (fact.json.write ++
      (Json.Value.writeMoreItems (Fact.jsonAll facts) ++ ']' :: rest))).run allocator =
        (some (fact :: facts, rest), allocator.reserveAll (Fact.idsIn (fact :: facts))) := by
  induction facts generalizing fact fuel allocator with
  | nil =>
    obtain ⟨back, decoded⟩ := each fact List.mem_cons_self
    have read := back.readValue (endsNumber_of_head rest (.inr (.inl rfl)))
    rw [readFacts]
    simp [Fact.jsonAll, Json.Value.writeMoreItems, Attempt.ofOption, Attempt.run, bind, pure, read,
      decoded, Json.expect?, Text.isLayout, Fact.idsIn]
  | cons next facts ih =>
    obtain ⟨back, decoded⟩ := each fact List.mem_cons_self
    obtain ⟨fuel, rfl⟩ : ∃ less, fuel = less + 1 := Nat.exists_eq_add_one_of_ne_zero (by
      rintro rfl
      exact Nat.not_succ_le_zero _ enough)
    have others := ih (fun one member => each one (List.mem_cons_of_mem _ member))
      (Nat.le_of_succ_le_succ enough) (allocator.reserveAll fact.ids)
    have read := back.readValue (endsNumber_of_head (next.json.write ++
      (Json.Value.writeMoreItems (Fact.jsonAll facts) ++ ']' :: rest)) (.inl rfl))
    rw [readFacts]
    simp [Fact.jsonAll, Json.Value.writeMoreItems, Attempt.ofOption, Attempt.run, bind, pure, read,
      decoded, Json.expect?, Text.isLayout, others, Fact.idsIn, Allocator.reserveAll_append]

theorem exists_json_write_cons (fact : Fact) : ∃ text, fact.json.write = '\x7b' :: text := by
  cases fact <;> exact ⟨_, rfl⟩

theorem length_le_writeMoreItems (items : List Json.Value) :
    items.length ≤ (Json.Value.writeMoreItems items).length := by
  induction items with
  | nil => exact Nat.zero_le _
  | cons item rest ih =>
    simp only [Json.Value.writeMoreItems, List.length_cons, List.length_append]
    omega

theorem run_readFactList_write {facts : List Fact} (each : ∀ one ∈ facts, Reloads one)
    (rest : List Char) (allocator : Allocator) :
    (readFactList ((Json.Value.array (Fact.jsonAll facts)).write ++ rest)).run allocator =
      (some (facts, rest), allocator.reserveAll (Fact.idsIn facts)) := by
  cases facts with
  | nil => rfl
  | cons fact facts =>
    obtain ⟨text, written⟩ := exists_json_write_cons fact
    have enough := length_le_writeMoreItems (Fact.jsonAll facts)
    rw [Fact.jsonAll_eq_map, List.length_map, ← Fact.jsonAll_eq_map] at enough
    have read := run_readFacts_write each
      (show facts.length ≤ (text ++ (Json.Value.writeMoreItems (Fact.jsonAll facts) ++
        ']' :: rest)).length by simp; omega) rest allocator
    simpa [readFactList, Fact.jsonAll, Json.Value.write, Json.Value.writeItems, Json.expect?,
      Text.isLayout, written, Attempt.ofOption, Attempt.run, bind] using read

theorem run_readDocumentMembers_write {facts : List Fact} (each : ∀ one ∈ facts, Reloads one)
    (fuel : Nat) (rest : List Char) (allocator : Allocator) :
    (readDocumentMembers (fuel + 1) none (Json.writeString "facts".toList ++
      ':' :: ((Json.Value.array (Fact.jsonAll facts)).write ++ '\x7d' :: rest))).run allocator =
        (some (facts, rest), allocator.reserveAll (Fact.idsIn facts)) := by
  have read := run_readFactList_write each ('\x7d' :: rest) allocator
  rw [readDocumentMembers, readKey_write]
  simp [readDocumentMember, Attempt.ofOption, Attempt.run, bind, pure, read, Json.expect?,
    Text.isLayout]

/-- A fact reloads when it has no floating-point numbers and fits into a document. -/
theorem reloads_of_exact {fact : Fact} (exact : ∀ value ∈ fact.values, ∀ x, value ≠ .float x)
    (shallow : fact.json.nesting ≤ factDepth) : Reloads fact :=
  ⟨readValue_write (isExact_json exact) shallow, run_decodeFact_json exact⟩

/-- A dump is the compact form of a JSON value. If the memory has no
floating-point numbers, and the value nests no deeper than a document may, the
dump loads whatever the state of the allocator. What it loads as is the same
memory, and the identifiers in it are reserved in document order. -/
theorem load_dump {memory : WorkingMemory}
    (exact : ∀ value ∈ Fact.valuesIn memory.facts, ∀ x, value ≠ .float x)
    (shallow : memory.json.nesting ≤ maxDepth) (allocator : Allocator) :
    memory.dump = String.ofList memory.json.write ∧
      (WorkingMemory.load memory.dump).run allocator =
        (some memory, allocator.reserveAll (Fact.idsIn memory.facts)) := by
  have each : ∀ fact ∈ memory.facts, Reloads fact := by
    intro fact member
    have inside : fact.json ∈ Fact.jsonAll memory.facts := by
      rw [Fact.jsonAll_eq_map]
      exact List.mem_map_of_mem member
    have depth := Json.Value.nesting_le_nestingItems inside
    simp only [WorkingMemory.json, Json.Value.nesting, Json.Value.nestingMembers] at shallow
    refine reloads_of_exact (fun value inside => ?_) (by rw [factDepth]; omega)
    exact exact value (Fact.mem_valuesIn.mpr ⟨fact, member, inside⟩)
  have written : memory.json.write = '\x7b' :: (Json.writeString "facts".toList ++
      ':' :: ((Json.Value.array (Fact.jsonAll memory.facts)).write ++ ['\x7d'])) := by
    simp [WorkingMemory.json, Json.Value.write, Json.Value.writeMembers,
      Json.Value.writeMoreMembers]
  have document : (readDocument memory.json.write).run allocator =
      (some (memory.facts, []), allocator.reserveAll (Fact.idsIn memory.facts)) := by
    rw [written]
    exact run_readDocumentMembers_write each _ [] allocator
  refine ⟨memory.dump_eq, ?_⟩
  rw [WorkingMemory.load, WorkingMemory.dump_eq, String.toList_ofList]
  simp [Attempt.run, bind, pure, document]

/-- Two leaves with one identifier, an empty group, and a string that needs escapes. -/
theorem load_dump_mixed :
    let memory : WorkingMemory := ⟨[.leaf 7 "axe" (.int (-3)),
      .group "box" [.group "lid" [], .leaf 7 "note" (.string "\"\n"), .leaf 9 "open" (.bool true)]]⟩
    memory.json.nesting = 6 ∧
      (WorkingMemory.load memory.dump).run {} = (some memory, ⟨10⟩) := by
  intro memory
  have exact : ∀ value ∈ Fact.valuesIn memory.facts, ∀ x, value ≠ .float x := by
    intro value inside x same
    subst same
    simp [memory, Fact.valuesIn, Fact.values] at inside
  have nesting : memory.json.nesting = 6 := by decide
  exact ⟨nesting, (load_dump exact (by rw [nesting]; decide) {}).2⟩

end RuleNet.Memory
