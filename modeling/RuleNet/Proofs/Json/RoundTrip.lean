import RuleNet.Json.Reader
import RuleNet.Number.Shortest
import RuleNet.Proofs.Json.Literal

/-!
# Written values read back

The compact form of a JSON value has no layout (`Value.write`). Reading it gives
the value again, if the numbers in it are integers that fit into 64 bits, signed
or unsigned, and if it nests no deeper than the reader goes.

* `readNumber_writeSigned`: an integer is read up to its last digit, and has its value.
* `readItems_write`, `readMembers_write`: lists, when their parts read back.
* `readValue_write`: every value. There are enough steps for it if there is one
  for every character.
-/

namespace RuleNet.Json

open Number (naturalOf writeNatural writeSigned)
open Text (isLayout)

/-! ## The compact form -/

namespace Value

mutual
/-- The compact form of a value. -/
def write : Value → List Char
  | null => "null".toList
  | bool b => if b then "true".toList else "false".toList
  | number (.integer n) => writeSigned n
  | number (.float x) => Number.FloatFormat.json.write x
  | string s => writeString s.toList
  | array items => '[' :: writeItems items ++ [']']
  | object members => '\x7b' :: writeMembers members ++ ['\x7d']

/-- The compact forms of several values, separated by commas. -/
def writeItems : List Value → List Char
  | [] => []
  | item :: rest => write item ++ writeMoreItems rest

/-- The compact forms of several values, a comma before each. -/
def writeMoreItems : List Value → List Char
  | [] => []
  | item :: rest => ',' :: write item ++ writeMoreItems rest

/-- The members of an object, separated by commas. -/
def writeMembers : List (String × Value) → List Char
  | [] => []
  | (key, value) :: rest => writeString key.toList ++ ':' :: write value ++ writeMoreMembers rest

/-- The members of an object, a comma before each. -/
def writeMoreMembers : List (String × Value) → List Char
  | [] => []
  | (key, value) :: rest =>
      ',' :: writeString key.toList ++ ':' :: write value ++ writeMoreMembers rest
end

mutual
/-- How deep arrays and objects nest. -/
def nesting : Value → Nat
  | array items => nestingItems items + 1
  | object members => nestingMembers members + 1
  | _ => 0

/-- The deepest nesting among several values. -/
def nestingItems : List Value → Nat
  | [] => 0
  | item :: rest => max (nesting item) (nestingItems rest)

/-- The deepest nesting among the members of an object. -/
def nestingMembers : List (String × Value) → Nat
  | [] => 0
  | (_, value) :: rest => max (nesting value) (nestingMembers rest)
end

/-- The integers that are read as integers. -/
def Fits (n : Int) : Prop := -0x8000000000000000 ≤ n ∧ n ≤ Literal.wordMax

/-- All numbers in the value are integers that are read as integers. -/
inductive IsExact : Value → Prop
  | null : IsExact null
  | bool (b : Bool) : IsExact (bool b)
  | integer {n : Int} : Fits n → IsExact (number (.integer n))
  | string (s : String) : IsExact (string s)
  | array {items : List Value} : (∀ item ∈ items, IsExact item) → IsExact (array items)
  | object {members : List (String × Value)} :
      (∀ member ∈ members, IsExact member.2) → IsExact (object members)

end Value

/-! ## Numbers -/

theorem readNumber_writeSigned {n : Int} (fits : Value.Fits n) {rest : List Char}
    (ends : EndsNumber rest) :
    readNumber (writeSigned n ++ rest) = some (.number (.integer n), rest) := by
  obtain ⟨lower, upper⟩ := fits
  have value : Literal.value? ⟨decide (n < 0), writeNatural n.natAbs, [], none⟩ =
      some (.integer n) := by
    by_cases negative : n < 0
    · have bound : n.natAbs ≠ 0 ∧ n.natAbs ≤ 0x8000000000000000 := by omega
      have back : -(n.natAbs : Int) = n := by omega
      simp only [Literal.value?, Number.naturalOf_writeNatural, List.isEmpty_nil,
        Option.isNone_none, Bool.and_self, negative, decide_true, Bool.not_true,
        Bool.false_eq_true, if_true, if_false, if_pos bound, back]
    · have bound : n.natAbs ≤ Literal.wordMax := by omega
      have back : (n.natAbs : Int) = n := by omega
      simp only [Literal.value?, Number.naturalOf_writeNatural, List.isEmpty_nil,
        Option.isNone_none, Bool.and_self, negative, decide_false, Bool.not_false, if_true,
        if_pos bound, back]
  simp [readNumber, scanNumber?_append (isNumber_writeSigned n) ends, value]

/-! ## Values -/

theorem readValue_numeral {c : Char} (starts : StartsNumber c) (fuel depth : Nat)
    (rest : List Char) : readValue (fuel + 1) depth (c :: rest) = readNumber (c :: rest) := by
  rw [readValue, List.dropWhile_cons_of_neg (by simp [starts.not_isLayout])]
  split
  all_goals first
    | rfl
    | next same => cases same; exact absurd rfl (starts.ne (by decide) (by decide))

/-- What a written value starts with is neither layout nor a closing bracket. -/
theorem Value.IsExact.exists_write_cons {value : Value} (exact : value.IsExact) :
    ∃ c rest, value.write = c :: rest ∧ isLayout c = false ∧ c ≠ ']' := by
  cases exact with
  | null => exact ⟨_, _, rfl, by decide, by decide⟩
  | bool b => cases b <;> exact ⟨_, _, rfl, by decide, by decide⟩
  | @integer n fits =>
    obtain ⟨c, rest, written, starts⟩ := (isNumber_writeSigned n).exists_cons
    exact ⟨c, rest, by rw [write, written], starts.not_isLayout,
      starts.ne (by decide) (by decide)⟩
  | string s => exact ⟨_, _, rfl, by decide, by decide⟩
  | array items => exact ⟨_, _, rfl, by decide, by decide⟩
  | object members => exact ⟨_, _, rfl, by decide, by decide⟩

/-- The written form of the value is read as the value, whatever follows it, in
one step more than it has characters. -/
def ReadsBack (depth : Nat) (value : Value) : Prop :=
  ∀ {fuel : Nat} {rest : List Char}, value.write.length ≤ fuel → EndsNumber rest →
    readValue (fuel + 1) depth (value.write ++ rest) = some (value, rest)

/-- The steps that a reader takes for a text are enough. -/
theorem ReadsBack.readValue {depth : Nat} {value : Value} (back : ReadsBack depth value)
    {rest : List Char} (ends : EndsNumber rest) :
    Json.readValue (fuelFor (value.write ++ rest)) depth (value.write ++ rest) =
      some (value, rest) := by
  refine back ?_ ends
  rw [List.length_append]
  omega

theorem endsNumber_of_head {c : Char} (rest : List Char)
    (mark : c = ',' ∨ c = ']' ∨ c = '\x7d') : EndsNumber (c :: rest) := by
  intro d member
  cases member
  rcases mark with rfl | rfl | rfl <;> decide

/-- Elements that read back one by one read back together. -/
theorem readItems_write {depth : Nat} {item : Value} {items : List Value}
    (each : ∀ value ∈ item :: items, ReadsBack depth value) {fuel : Nat}
    (enough : (item.write ++ Value.writeMoreItems items).length ≤ fuel) (rest : List Char) :
    readItems (fuel + 2) depth (item.write ++ Value.writeMoreItems items ++ ']' :: rest) =
      some (item :: items, rest) := by
  induction items generalizing item fuel with
  | nil =>
    simp only [Value.writeMoreItems, List.append_nil] at enough ⊢
    have first : readValue (fuel + 1) depth (item.write ++ ']' :: rest) =
        some (item, ']' :: rest) :=
      each item List.mem_cons_self (by omega) (endsNumber_of_head _ (by simp))
    rw [readItems, first]
    rfl
  | cons next items ih =>
    simp only [Value.writeMoreItems, List.length_append, List.length_cons, List.append_assoc,
      List.cons_append] at enough ih ⊢
    have first : readValue (fuel + 1) depth
        (item.write ++ ',' :: (next.write ++ (Value.writeMoreItems items ++ ']' :: rest))) =
          some (item, _) :=
      each item List.mem_cons_self (by omega) (endsNumber_of_head _ (by simp))
    obtain ⟨fuel, rfl⟩ : ∃ less, fuel = less + 1 := ⟨fuel - 1, by omega⟩
    have others := ih (fun value member => each value (List.mem_cons_of_mem _ member))
      (show next.write.length + (Value.writeMoreItems items).length ≤ fuel by omega)
    rw [readItems, first]
    simp [expect?, isLayout, others]

theorem readString_content (s rest : List Char) :
    readString (s.flatMap writeChar ++ '"' :: rest) = some (s, rest) := by
  simpa [writeString] using readString_writeString s rest

theorem readKey_write (key : String) (rest : List Char) :
    readKey (writeString key.toList ++ ':' :: rest) = some (key, rest) := by
  simp [readKey, writeString, expect?, isLayout, readString_content]

section Members

variable {fuel depth : Nat} {value : Value} {text rest : List Char}

theorem readMembers_fault (key : String) (read : readValue fuel depth text = none) :
    readMembers (fuel + 1) depth (writeString key.toList ++ ':' :: text) = none := by
  rw [readMembers, readKey_write]
  simp only [read]

theorem readMembers_last (key : String)
    (read : readValue fuel depth text = some (value, '\x7d' :: rest)) :
    readMembers (fuel + 1) depth (writeString key.toList ++ ':' :: text) =
      some ([(key, value)], rest) := by
  rw [readMembers, readKey_write]
  simp only [read]
  rfl

theorem readMembers_next (key : String)
    (read : readValue fuel depth text = some (value, ',' :: rest)) :
    readMembers (fuel + 1) depth (writeString key.toList ++ ':' :: text) =
      (readMembers fuel depth rest).map fun (members, rest) => ((key, value) :: members, rest) := by
  rw [readMembers, readKey_write]
  simp [read, expect?, isLayout]

end Members

/-- Members whose values read back one by one read back together. -/
theorem readMembers_write {depth : Nat} {key : String} {value : Value}
    {members : List (String × Value)}
    (each : ∀ member ∈ (key, value) :: members, ReadsBack depth member.2) {fuel : Nat}
    (enough : (value.write ++ Value.writeMoreMembers members).length ≤ fuel) (rest : List Char) :
    readMembers (fuel + 2) depth (writeString key.toList ++ ':' :: (value.write ++
        (Value.writeMoreMembers members ++ '\x7d' :: rest))) =
      some ((key, value) :: members, rest) := by
  induction members generalizing key value fuel with
  | nil =>
    simp only [Value.writeMoreMembers, List.append_nil, List.nil_append] at enough ⊢
    have first : readValue (fuel + 1) depth (value.write ++ '\x7d' :: rest) =
        some (value, '\x7d' :: rest) :=
      each (key, value) List.mem_cons_self (by simp; omega) (endsNumber_of_head _ (by simp))
    exact readMembers_last key first
  | cons next members ih =>
    obtain ⟨key', value'⟩ := next
    simp only [Value.writeMoreMembers, List.length_append, List.length_cons, List.append_assoc,
      List.cons_append] at enough ih ⊢
    have first : readValue (fuel + 1) depth (value.write ++ ',' :: (writeString key'.toList ++
        ':' :: (value'.write ++ (Value.writeMoreMembers members ++ '\x7d' :: rest)))) =
          some (value, _) :=
      each (key, value) List.mem_cons_self (by simp; omega) (endsNumber_of_head _ (by simp))
    obtain ⟨fuel, rfl⟩ : ∃ less, fuel = less + 1 := ⟨fuel - 1, by omega⟩
    have later : ∀ member ∈ (key', value') :: members, ReadsBack depth member.2 :=
      fun member inside => each member (List.mem_cons_of_mem _ inside)
    have others := ih later
      (show value'.write.length + (Value.writeMoreMembers members).length ≤ fuel by omega)
    rw [readMembers_next key first, others]
    rfl

theorem Value.nesting_le_nestingItems {item : Value} {items : List Value} (member : item ∈ items) :
    item.nesting ≤ nestingItems items := by
  induction member with
  | head rest => exact Nat.le_max_left _ _
  | tail _ _ ih => exact Nat.le_trans ih (Nat.le_max_right _ _)

theorem Value.nesting_le_nestingMembers {member : String × Value}
    {members : List (String × Value)} (inside : member ∈ members) :
    member.2.nesting ≤ nestingMembers members := by
  induction inside with
  | head rest => exact Nat.le_max_left _ _
  | tail _ _ ih => exact Nat.le_trans ih (Nat.le_max_right _ _)

theorem readValue_array {fuel depth : Nat} {text rest : List Char} {items : List Value}
    (unclosed : expect? ']' text = none) (read : readItems fuel depth text = some (items, rest)) :
    readValue (fuel + 1) (depth + 1) ('[' :: text) = some (.array items, rest) := by
  simp [readValue, isLayout, unclosed, read]

theorem readValue_object {fuel depth : Nat} {text : List Char}
    (unclosed : expect? '\x7d' text = none) :
    readValue (fuel + 1) (depth + 1) ('\x7b' :: text) =
      (readMembers fuel depth text).map fun (members, rest) => (.object members, rest) := by
  simp [readValue, isLayout, unclosed]

/-- A written value reads back, if it nests no deeper than it may and its
numbers are integers. -/
theorem readValue_write {value : Value} (exact : value.IsExact) {depth : Nat}
    (shallow : value.nesting ≤ depth) : ReadsBack depth value := by
  induction exact generalizing depth with
  | null => exact fun _ _ => rfl
  | bool b => cases b <;> exact fun _ _ => rfl
  | @integer n fits =>
    intro fuel rest _ ends
    obtain ⟨c, tail, written, starts⟩ := (isNumber_writeSigned n).exists_cons
    have read := readNumber_writeSigned fits ends
    rw [Value.write, written, List.cons_append, readValue_numeral starts, ← List.cons_append,
      ← written, read]
  | string s =>
    intro fuel rest _ _
    simp [Value.write, writeString, readValue, isLayout, readString_content]
  | @array items exact ih =>
    intro fuel rest enough _
    obtain ⟨depth, rfl⟩ : ∃ less, depth = less + 1 := Nat.exists_eq_add_one_of_ne_zero (by
      rintro rfl
      exact Nat.not_succ_le_zero _ shallow)
    cases items with
    | nil => rfl
    | cons item items =>
      simp only [Value.write, Value.writeItems, List.length_cons, List.length_append,
        List.append_assoc, List.cons_append, List.nil_append, List.length_nil] at enough ⊢
      obtain ⟨fuel, rfl⟩ : ∃ less, fuel = less + 2 := ⟨fuel - 2, by omega⟩
      have each : ∀ value ∈ item :: items, ReadsBack depth value := fun value member =>
        ih value member (Nat.le_trans (Value.nesting_le_nestingItems member)
          (Nat.le_of_succ_le_succ shallow))
      have fits : (item.write ++ Value.writeMoreItems items).length ≤ fuel := by simp; omega
      have read := readItems_write each fits rest
      obtain ⟨c, tail, written, plain, other⟩ := (exact item List.mem_cons_self).exists_write_cons
      rw [List.append_assoc] at read
      exact readValue_array (by simp [expect?, written, plain, other]) read
  | @object members exact ih =>
    intro fuel rest enough _
    obtain ⟨depth, rfl⟩ : ∃ less, depth = less + 1 := Nat.exists_eq_add_one_of_ne_zero (by
      rintro rfl
      exact Nat.not_succ_le_zero _ shallow)
    cases members with
    | nil => rfl
    | cons member members =>
      obtain ⟨key, value⟩ := member
      simp only [Value.write, Value.writeMembers, List.length_cons, List.length_append,
        List.append_assoc, List.cons_append, List.nil_append, List.length_nil] at enough ⊢
      obtain ⟨fuel, rfl⟩ : ∃ less, fuel = less + 2 := ⟨fuel - 2, by omega⟩
      have each : ∀ member ∈ (key, value) :: members, ReadsBack depth member.2 :=
        fun member inside => ih member inside (Nat.le_trans
          (Value.nesting_le_nestingMembers inside) (Nat.le_of_succ_le_succ shallow))
      have fits : (value.write ++ Value.writeMoreMembers members).length ≤ fuel := by simp; omega
      have read := readMembers_write each fits rest
      refine (readValue_object (by simp [writeString, expect?, isLayout])).trans ?_
      rw [read]
      rfl

end RuleNet.Json
