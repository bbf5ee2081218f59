import RuleNet.Proofs.Json.Precision
import RuleNet.Proofs.Memory.Numbers
import RuleNet.Proofs.Rule.IntegerBounds
import RuleNet.Rule.Matching

/-!
# Numbers in rules and in memories

A number of a memory can also be the text of a numeric leaf condition, but it goes
through another reader there. The reader of floating-point bounds always finds the
nearest number (`readBinary64?_of_isNumber`), the one of memories does so for precise
numbers only; and zero with a minus sign is an integer for bounds, but not for
memories.

* `number_agrees`: where both readers give the same value, and where they do not.
* `numbers_disagree`: one number next to each limit of agreement.
-/

namespace RuleNet.Json

open Number (Binary64 Denotes isNumeral naturalOf readBinary64? readSigned? readSigned?_eq_some_iff)

variable {text digits rest : List Char} {literal : Literal}

theorem IsSigned.denotes {sign : Bool} (signed : IsSigned text sign digits) :
    Denotes text (if sign then -(naturalOf digits : Int) else naturalOf digits) := by
  cases signed with
  | unsigned numeral => exact .unsigned numeral
  | plus numeral => exact .plus numeral
  | minus numeral => exact .minus numeral

theorem readExponent?_of_isExponent {exponent : Option (Bool × List Char)}
    (written : IsExponent text exponent) (negative : Bool) (whole fraction : List Char) :
    Number.Scientific.readExponent? text =
      some (Literal.exponentValue ⟨negative, whole, fraction, exponent⟩) := by
  cases written with
  | absent => rfl
  | marked mark signed =>
    rw [Number.Scientific.readExponent?, if_pos (by rcases mark with rfl | rfl <;> rfl)]
    exact readSigned?_eq_some_iff.mpr signed.denotes

theorem takeFraction_of_isFraction (written : IsFraction text digits) (ends : EndsDigits rest)
    (noPoint : rest.head? ≠ some '.') :
    Number.Scientific.takeFraction (text ++ rest) = (digits, rest) := by
  cases written with
  | absent =>
    rw [List.nil_append]
    unfold Number.Scientific.takeFraction
    split
    · exact absurd rfl noPoint
    · rfl
  | point numeral =>
    obtain ⟨taken, dropped⟩ := takeWhile_digits (forall_isDigit numeral) ends
    rw [List.cons_append, Number.Scientific.takeFraction, taken, dropped]

theorem read?_of_isUnsigned {whole fraction : List Char} {exponent : Option (Bool × List Char)}
    (written : IsUnsigned text whole fraction exponent) (negative : Bool) :
    Number.Scientific.read? text =
      some ⟨whole ++ fraction, Literal.power ⟨negative, whole, fraction, exponent⟩⟩ := by
  obtain @⟨whole, pointed, fraction, marked, exponent, isWhole, isFraction, isExponent⟩ := written
  have none : EndsNumber [] := fun c first => by cases first
  obtain ⟨endsFraction, noPoint⟩ := isExponent.ends none
  rw [List.append_nil] at endsFraction noPoint
  obtain ⟨taken, dropped⟩ := takeWhile_digits (forall_isDigit isWhole.numeral)
    (isFraction.ends endsFraction)
  obtain ⟨c, more, same, -⟩ := exists_digit isWhole.numeral
  unfold Number.Scientific.read?
  simp only [taken, dropped, takeFraction_of_isFraction isFraction endsFraction noPoint]
  rw [if_neg (by simp [same]), readExponent?_of_isExponent isExponent negative whole fraction]
  rfl

/-- What starts with a digit is no word. -/
theorem map_toLower_ne {c : Char} (digit : c.isDigit = true) (more : List Char) {word : List Char}
    (letter : EndsDigits word) : (c :: more).map Char.toLower ≠ word := by
  rintro rfl
  have noDigit := letter c.toLower rfl
  have mark := Number.mark?_toLower c
  rw [Number.mark?_of_isDigit digit] at mark
  rw [Number.isDigit_of_mark? mark] at noDigit
  cases noDigit

theorem readMagnitude?_of_isUnsigned {whole fraction : List Char}
    {exponent : Option (Bool × List Char)} (written : IsUnsigned text whole fraction exponent)
    (negative : Bool) :
    Number.readMagnitude? text =
      some (Binary64.nearestDecimal (Literal.digits ⟨negative, whole, fraction, exponent⟩)
        (Literal.power ⟨negative, whole, fraction, exponent⟩)) := by
  have read := read?_of_isUnsigned written negative
  obtain ⟨c, more, rfl, digit⟩ := written.exists_digit
  have noWord {word : List Char} := @map_toLower_ne c digit more word
  unfold Number.readMagnitude?
  dsimp only
  rw [if_neg (not_or.mpr ⟨noWord ?_, noWord ?_⟩), if_neg (noWord ?_), read]
  · rfl
  all_goals exact fun d first => by cases first; rfl

/-- A number is read as the nearest floating-point number. -/
theorem readBinary64?_of_isNumber (number : IsNumber text literal) :
    readBinary64? text = some literal.nearest := by
  cases number with
  | unsigned written =>
    have read := readMagnitude?_of_isUnsigned written false
    obtain ⟨c, more, rfl, digit⟩ := written.exists_digit
    unfold readBinary64?
    split
    · next same => cases same; exact absurd digit (by decide)
    · next same => cases same; exact absurd digit (by decide)
    · rw [read]
      rfl
  | minus written =>
    rw [readBinary64?, readMagnitude?_of_isUnsigned written true]
    rfl

theorem IsNumber.denotes (number : IsNumber text literal) (integer : literal.IsInteger) :
    Denotes text literal.integer := by
  obtain ⟨whole, rfl⟩ := number.of_integer integer
  unfold Literal.integer
  cases literal.negative with
  | false => exact .unsigned whole.numeral
  | true => exact .minus whole.numeral

end RuleNet.Json

namespace RuleNet.Rule

open Json (IsNumber Literal)
open Markup (Element)
open Memory (FactId WorkingMemory decodeValue? numberMemory)
open Number (Binary64)

variable {text : List Char} {literal : Literal} {element : Element}

/-! ## Leaves with one number -/

theorem spells_number (number : IsNumber text literal) : Spells text text text := by
  have spelled := Number.spelled_of_readBinary64? (Json.readBinary64?_of_isNumber number)
  have spells := @spells_of_spelled [] text [] (by simp) (by simp) spelled
  rwa [List.nil_append, List.append_nil] at spells

theorem nearest_le_self (literal : Literal) : literal.nearest.le literal.nearest = true := by
  have notNaN := Binary64.nearestDecimal_le literal.digits literal.power
  rw [Literal.nearest, Binary64.le_ofMagnitude_iff notNaN notNaN]
  split <;> exact Nat.le_refl _

/-- A floating-point leaf takes every number, and asks for the nearest one. -/
theorem ofElement_float (number : IsNumber text literal)
    (declared : element.attribute? "type" = some "float")
    (content : element.text = some (String.ofList text)) :
    Condition.ofElement element = .ok (.float element.name literal.nearest literal.nearest) := by
  have read := Json.readBinary64?_of_isNumber number
  rw [ofElement_of_typed declared, content]
  refine Condition.ofLeaf_of_declares (.float rfl ?_)
  rw [Option.getD_some, String.toList_ofList]
  exact .intro (spells_number number) read read (nearest_le_self literal)

/-- An integer leaf takes the numbers that are integers of 64 bits. -/
theorem of_ofElement_int (number : IsNumber text literal)
    (declared : element.attribute? "type" = some "int")
    (content : element.text = some (String.ofList text)) {condition : Condition}
    (accepted : Condition.ofElement element = .ok condition) :
    ∃ word, Number.readInt64? text = some word ∧ condition = .int element.name word word := by
  rw [ofElement_of_typed declared, content, Condition.ofLeaf_eq_ok_iff] at accepted
  have spells := spells_number number
  cases read : Number.readInt64? text with
  | none =>
    have fault : Condition.LeafFault element.name "int" (some (String.ofList text))
        (Condition.boundsError element.name (.badNumber text)) := by
      refine .int rfl ?_
      rw [Option.getD_some, String.toList_ofList]
      exact .low spells read
    exact absurd ((Condition.ofLeaf_of_declares accepted).symm.trans
      (Condition.ofLeaf_of_fault fault)) (by simp)
  | some word =>
    have declares : Condition.Declares element.name "int" (some (String.ofList text))
        (.int element.name word word) := by
      refine .int rfl ?_
      rw [Option.getD_some, String.toList_ofList]
      exact .intro spells read read (decide_eq_true (Int64.le_refl word))
    refine ⟨word, rfl, ?_⟩
    exact Except.ok.inj ((Condition.ofLeaf_of_declares accepted).symm.trans
      (Condition.ofLeaf_of_declares declares))

/-! ## Rules and memories -/

theorem match?_int_self (isWildcard : String → Bool) (name : String) (word : Int64) (id : FactId) :
    (Condition.int name word word).match? isWildcard (.leaf id name (.int word)) = some [id] := by
  simp [Condition.match?, Condition.acceptsName]

/-- What is read of a number matches if it is the nearest one. -/
theorem isSome_match?_float_iff (isWildcard : String → Bool) (name : String) (id : FactId)
    {magnitude : Nat} (notNaN : magnitude ≤ Binary64.infinityMagnitude) :
    ((Condition.float name literal.nearest literal.nearest).match? isWildcard
        (.leaf id name (.float (Binary64.ofMagnitude literal.negative magnitude)))).isSome = true ↔
      Binary64.ofMagnitude literal.negative magnitude = literal.nearest := by
  have notNaN' := Binary64.nearestDecimal_le literal.digits literal.power
  have tested : ((Condition.float name literal.nearest literal.nearest).match? isWildcard
      (.leaf id name (.float (Binary64.ofMagnitude literal.negative magnitude)))).isSome = true ↔
        literal.nearest.le (Binary64.ofMagnitude literal.negative magnitude) = true ∧
          (Binary64.ofMagnitude literal.negative magnitude).le literal.nearest = true := by
    simp [Condition.match?, Condition.acceptsName]
  rw [tested]
  constructor
  · rintro ⟨below, above⟩
    exact congrArg _ (Binary64.eq_of_le_of_le notNaN notNaN' above below)
  · intro same
    rw [same]
    exact ⟨nearest_le_self literal, nearest_le_self literal⟩

/-- An integer means the same in both, unless it is zero with a minus sign. -/
theorem integer_agrees (number : IsNumber text literal) (isInteger : literal.IsInteger)
    (declared : element.attribute? "type" = some "int")
    (content : element.text = some (String.ofList text)) {condition : Condition}
    (accepted : Condition.ofElement element = .ok condition) (isWildcard : String → Bool)
    (allocator : Memory.Allocator) :
    ∃ fact,
      ((WorkingMemory.load (numberMemory element.name text)).run allocator).1 = some ⟨[fact]⟩ ∧
        ((condition.match? isWildcard fact).isSome = true ↔ text ≠ ['-', '0']) := by
  obtain ⟨word, read, rfl⟩ := of_ofElement_int number declared content accepted
  have fits : word.toInt = literal.integer :=
    (Number.readInt64?_eq_some_iff.mp read).unique (number.denotes isInteger)
  obtain ⟨whole, written⟩ := number.of_integer isInteger
  by_cases minusZero : literal.negative = true ∧ Number.naturalOf literal.whole = 0
  · obtain ⟨negative, zero⟩ := minusZero
    have value := Literal.value?_of_minus_zero isInteger negative zero
    refine ⟨_, congrArg Prod.fst
      (Memory.run_load_number number value rfl element.name allocator), ?_⟩
    rw [negative, if_pos rfl, whole.eq_zero zero] at written
    simp [Condition.match?, written]
  · have value := Literal.value?_of_isInteger isInteger fits (not_and.mp minusZero)
    have decoded : decodeValue? (.number (.integer word.toInt)) = some (.int word) := by
      simp [decodeValue?]
    refine ⟨_, congrArg Prod.fst
      (Memory.run_load_number number value decoded element.name allocator), ?_⟩
    rw [match?_int_self]
    refine iff_of_true rfl ?_
    rintro rfl
    cases negative : literal.negative with
    | false =>
      rw [negative, if_neg Bool.false_ne_true] at written
      exact absurd (written ▸ whole.numeral) (by decide)
    | true =>
      rw [negative, if_pos rfl] at written
      exact minusZero ⟨negative, (List.cons.inj written).2 ▸ rfl⟩

/-- Another number is taken by a floating-point leaf, and matches if the memory has it as
the nearest floating-point number too. -/
theorem float_agrees (number : IsNumber text literal) (other : ¬ literal.IsInteger)
    (isWildcard : String → Bool) (name : String) (allocator : Memory.Allocator)
    {memory : WorkingMemory}
    (loaded : ((WorkingMemory.load (numberMemory name text)).run allocator).1 = some memory) :
    ∃ id x, literal.value? = some (.float x) ∧ memory = ⟨[.leaf id name (.float x)]⟩ ∧
      (((Condition.float name literal.nearest literal.nearest).match? isWildcard
        (.leaf id name (.float x))).isSome = true ↔ x = literal.nearest) := by
  cases value : literal.value? with
  | none =>
    rw [Memory.run_load_fault number value] at loaded
    cases loaded
  | some n =>
    obtain ⟨magnitude, notNaN, rfl⟩ :=
      Literal.exists_magnitude ((Literal.value?_of_not_isInteger other).symm.trans value)
    rw [Memory.run_load_number number value rfl] at loaded
    cases loaded
    exact ⟨_, _, rfl, rfl, isSome_match?_float_iff isWildcard name _ notNaN⟩

/-- A number that is the text of a leaf condition and the value of a fact of the same
name. Without fraction and exponent, an integer leaf that takes it matches the fact,
unless the number is zero with a minus sign, which loads as a floating-point number.
Any other number is taken by a floating-point leaf, which asks for the nearest
floating-point number; if the memory loads, the leaf matches the fact exactly if the
memory has the nearest one as well, and every precise number loads and matches. -/
theorem number_agrees (number : IsNumber text literal)
    (content : element.text = some (String.ofList text)) (isWildcard : String → Bool)
    (allocator : Memory.Allocator) :
    let loaded := ((WorkingMemory.load (numberMemory element.name text)).run allocator).1
    (literal.IsInteger → element.attribute? "type" = some "int" →
      ∀ condition, Condition.ofElement element = .ok condition →
        ∃ fact, loaded = some ⟨[fact]⟩ ∧
          ((condition.match? isWildcard fact).isSome = true ↔ text ≠ ['-', '0'])) ∧
    (¬ literal.IsInteger → element.attribute? "type" = some "float" →
      let condition := Condition.float element.name literal.nearest literal.nearest
      Condition.ofElement element = .ok condition ∧
        (∀ memory, loaded = some memory → ∃ id x, memory = ⟨[.leaf id element.name (.float x)]⟩ ∧
          ((condition.match? isWildcard (.leaf id element.name (.float x))).isSome = true ↔
            x = literal.nearest)) ∧
        (literal.IsPrecise → ∃ fact, loaded = some ⟨[fact]⟩ ∧
          (condition.match? isWildcard fact).isSome = true)) := by
  intro loaded
  refine ⟨fun isInteger declared condition accepted =>
    integer_agrees number isInteger declared content accepted isWildcard allocator,
    fun other declared => ⟨ofElement_float number declared content, ?_, ?_⟩⟩
  · intro memory found
    obtain ⟨id, x, -, same, agrees⟩ :=
      float_agrees number other isWildcard element.name allocator found
    exact ⟨id, x, same, agrees⟩
  · intro precise
    have value := (Literal.value?_of_not_isInteger other).trans
      (Literal.floatValue?_of_isPrecise precise)
    have found := congrArg Prod.fst
      (Memory.run_load_number number value rfl element.name allocator)
    obtain ⟨id, x, read, same, agrees⟩ :=
      float_agrees number other isWildcard element.name allocator found
    rw [value] at read
    cases read
    cases same
    exact ⟨_, found, agrees.mpr rfl⟩

/-- A number of each kind, both with a minus sign. -/
theorem number_agrees_signed :
    let leaf type text : Element :=
      { name := "hp", attributes := [("type", type)], text := some text }
    let loaded text := ((WorkingMemory.load (numberMemory "hp" text)).run {}).1
    (∃ condition fact, Condition.ofElement (leaf "int" "-12") = .ok condition ∧
      loaded ['-', '1', '2'] = some ⟨[fact]⟩ ∧
      (condition.match? (fun _ => false) fact).isSome = true) ∧
    ∃ condition fact, Condition.ofElement (leaf "float" "-2.5E-3") = .ok condition ∧
      loaded ['-', '2', '.', '5', 'E', '-', '3'] = some ⟨[fact]⟩ ∧
      (condition.match? (fun _ => false) fact).isSome = true := by
  intro leaf loaded
  have whole : IsNumber ['-', '1', '2'] ⟨true, ['1', '2'], [], none⟩ :=
    .minus (@Json.IsUnsigned.parts ['1', '2'] [] [] [] none ⟨by decide, by decide⟩ .absent .absent)
  have scaled :
      IsNumber ['-', '2', '.', '5', 'E', '-', '3'] ⟨true, ['2'], ['5'], some (true, ['3'])⟩ :=
    .minus (@Json.IsUnsigned.parts ['2'] ['.', '5'] ['5'] ['E', '-', '3'] (some (true, ['3']))
      ⟨by decide, by decide⟩ (.point (by decide)) (.marked (by decide) (.minus (by decide))))
  have accepted : Condition.ofElement (leaf "int" "-12") = .ok (.int "hp" (-12) (-12)) := rfl
  obtain ⟨fact, found, matched⟩ := (@number_agrees _ _ (leaf "int" "-12") whole rfl
    (fun _ => false) {}).1 ⟨rfl, rfl⟩ rfl _ accepted
  obtain ⟨taken, -, precise⟩ := (@number_agrees _ _ (leaf "float" "-2.5E-3") scaled rfl
    (fun _ => false) {}).2 (by decide) rfl
  obtain ⟨fact', found', matched'⟩ := precise (.short (by decide) (by decide) (by decide))
  exact ⟨⟨_, fact, accepted, found, matched.mpr (by decide)⟩, _, fact', taken, found', matched'⟩

/-- A number that the memory has rounded away from the nearest one is not matched. -/
theorem exists_mismatch (number : IsNumber text literal) (other : ¬ literal.IsInteger)
    (declared : element.attribute? "type" = some "float")
    (content : element.text = some (String.ofList text)) {x : Binary64}
    (read : literal.value? = some (.float x)) (miss : x ≠ literal.nearest)
    (isWildcard : String → Bool) (allocator : Memory.Allocator) :
    ∃ condition fact, Condition.ofElement element = .ok condition ∧
      ((WorkingMemory.load (numberMemory element.name text)).run allocator).1 = some ⟨[fact]⟩ ∧
      (condition.match? isWildcard fact).isSome = false := by
  have found := congrArg Prod.fst (Memory.run_load_number number read rfl element.name allocator)
  obtain ⟨id, y, value, same, agrees⟩ :=
    float_agrees number other isWildcard element.name allocator found
  rw [read] at value
  cases value
  cases same
  exact ⟨_, _, ofElement_float number declared content, found,
    Bool.eq_false_iff.mpr (mt agrees.mp miss)⟩

/-- Zero with a minus sign is an integer in a rule and a floating-point number in a memory.
The other numbers are next to the precise ones: one more power of ten on either side,
and the first digits that take 54 bits. -/
theorem numbers_disagree :
    let leaf type text : Element :=
      { name := "hp", attributes := [("type", type)], text := some text }
    let Missed type text := ∃ condition fact, Condition.ofElement (leaf type text) = .ok condition ∧
      ((WorkingMemory.load (numberMemory "hp" text.toList)).run {}).1 = some ⟨[fact]⟩ ∧
      (condition.match? (fun _ => false) fact).isSome = false
    Missed "int" "-0" ∧ Missed "float" "1e-23" ∧ Missed "float" "3e23" ∧
      Missed "float" "90071992547409.93" := by
  intro leaf Missed
  have zero : IsNumber ['-', '0'] ⟨true, ['0'], [], none⟩ :=
    .minus (@Json.IsUnsigned.parts ['0'] [] [] [] none ⟨by decide, by decide⟩ .absent .absent)
  have small : IsNumber ['1', 'e', '-', '2', '3'] ⟨false, ['1'], [], some (true, ['2', '3'])⟩ :=
    .unsigned (@Json.IsUnsigned.parts ['1'] [] [] ['e', '-', '2', '3'] (some (true, ['2', '3']))
      ⟨by decide, by decide⟩ .absent (.marked (by decide) (.minus (by decide))))
  have large : IsNumber ['3', 'e', '2', '3'] ⟨false, ['3'], [], some (false, ['2', '3'])⟩ :=
    .unsigned (@Json.IsUnsigned.parts ['3'] [] [] ['e', '2', '3'] (some (false, ['2', '3']))
      ⟨by decide, by decide⟩ .absent (.marked (by decide) (.unsigned (by decide))))
  have long :
      IsNumber "90071992547409.93".toList ⟨false, "90071992547409".toList, ['9', '3'], none⟩ :=
    .unsigned (@Json.IsUnsigned.parts "90071992547409".toList ['.', '9', '3'] ['9', '3'] [] none
      ⟨by decide, by decide⟩ (.point (by decide)) .absent)
  refine ⟨?_, ?_, ?_, ?_⟩
  · have value := @Literal.value?_of_minus_zero ⟨true, ['0'], [], none⟩ (by decide) rfl rfl
    exact ⟨.int "hp" 0 0, _, rfl,
      congrArg Prod.fst (Memory.run_load_number zero value rfl "hp" {}), rfl⟩
  · exact @exists_mismatch _ _ (leaf "float" "1e-23") small (by decide) rfl rfl
      ⟨0x3b282db34012b252⟩ (by decide +kernel) (by decide +kernel) _ {}
  · exact @exists_mismatch _ _ (leaf "float" "3e23") large (by decide) rfl rfl
      ⟨0x44cfc3842bd1f071⟩ (by decide +kernel) (by decide +kernel) _ {}
  · exact @exists_mismatch _ _ (leaf "float" "90071992547409.93") long (by decide) rfl rfl
      ⟨0x42d47ae147ae147b⟩ (by decide +kernel) (by decide +kernel) _ {}

end RuleNet.Rule
