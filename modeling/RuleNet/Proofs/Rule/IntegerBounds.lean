import RuleNet.Proofs.Rule.BoundsKey
import RuleNet.Proofs.Rule.Schema

/-!
# The grammar of integer bounds

The text of an integer leaf is a signed numeral, or two of them with spaces
between, and any blanks around them (`Ranged`). A leaf is accepted exactly with
the bounds that its text has in this grammar, as long as they fit into 64 bits
and are in order; what is wrong with other texts depends only on whether they
have such bounds at all (`ofElement_integer`).

* `readSigned?_eq_some_iff`: a numeral is read as the integer that it denotes.
* `ranged_iff`: the bounds of a text are those that its words denote.
-/

namespace RuleNet.Number

/-- A signed numeral and the integer it denotes: at least one ASCII digit, and a
sign in front of them or none. -/
inductive Denotes : List Char → Int → Prop
  | unsigned {digits : List Char} :
      isNumeral digits = true → Denotes digits (naturalOf digits)
  | plus {digits : List Char} :
      isNumeral digits = true → Denotes ('+' :: digits) (naturalOf digits)
  | minus {digits : List Char} :
      isNumeral digits = true → Denotes ('-' :: digits) (-(naturalOf digits : Int))

section Numerals

variable {text : List Char} {n : Int}

theorem readNatural?_of_isNumeral (numeral : isNumeral text = true) :
    readNatural? text = some (naturalOf text) :=
  if_pos numeral

theorem denotes_of_readNatural? (sign : List Char) {value : Nat → Int}
    (made : ∀ {digits}, isNumeral digits = true →
      Denotes (sign ++ digits) (value (naturalOf digits)))
    (found : (readNatural? text).map value = some n) : Denotes (sign ++ text) n := by
  obtain ⟨m, read, rfl⟩ := Option.map_eq_some_iff.mp found
  obtain ⟨numeral, same⟩ := Option.ite_none_right_eq_some.mp read
  cases same
  exact made numeral

/-- A numeral is read as the integer that it denotes, and nothing else is read. -/
theorem readSigned?_eq_some_iff : readSigned? text = some n ↔ Denotes text n := by
  constructor
  · intro found
    unfold readSigned? at found
    split at found
    · exact denotes_of_readNatural? ['+'] .plus found
    · exact denotes_of_readNatural? ['-'] .minus found
    · exact denotes_of_readNatural? [] .unsigned found
  · intro denotes
    cases denotes with
    | unsigned numeral => exact readSigned?_of_isNumeral numeral
    | plus numeral => rw [readSigned?, readNatural?_of_isNumeral numeral, Option.map_some]
    | minus numeral => rw [readSigned?, readNatural?_of_isNumeral numeral, Option.map_some]

theorem Denotes.unique {m : Int} (denotes : Denotes text n) (denotes' : Denotes text m) : n = m :=
  Option.some.inj ((readSigned?_eq_some_iff.mpr denotes).symm.trans
    (readSigned?_eq_some_iff.mpr denotes'))

/-- A word is read from the numerals of its value. -/
theorem readInt64?_eq_some_iff {word : Int64} :
    readInt64? text = some word ↔ Denotes text word.toInt := by
  rw [← readSigned?_eq_some_iff]
  constructor
  · intro found
    obtain ⟨m, read, fits⟩ := Option.bind_eq_some_iff.mp found
    rw [read, toInt_of_toInt64? fits]
  · intro read
    rw [readInt64?, read, Option.bind_some, toInt64?_toInt]

theorem Denotes.spelled (denotes : Denotes text n) : Spelled text :=
  ⟨.whole, Stage.readAll_of_readSigned? rfl rfl rfl rfl (readSigned?_eq_some_iff.mpr denotes), rfl⟩

end Numerals

end RuleNet.Number

namespace RuleNet.Rule

open Markup (Element)
open Number (Denotes)
open Text (isBlank)

/-- The bounds that a text has: one numeral stands for both of them, two numerals
have spaces between them, and blanks of any kind stand around. -/
inductive Ranged : List Char → Int → Int → Prop
  | one {before numeral after : List Char} {n : Int} :
      (∀ c ∈ before, isBlank c = true) → (∀ c ∈ after, isBlank c = true) → Denotes numeral n →
      Ranged (before ++ (numeral ++ after)) n n
  | two {before low gap high after : List Char} {min max : Int} :
      (∀ c ∈ before, isBlank c = true) → (∀ c ∈ after, isBlank c = true) → IsGap gap →
      Denotes low min → Denotes high max →
      Ranged (before ++ (low ++ (gap ++ high) ++ after)) min max

section Texts

variable {text low high : List Char} {min max : Int}

/-- A number alone, with blanks around it, spells both bounds. -/
theorem spells_of_spelled {before word after : List Char}
    (front : ∀ c ∈ before, isBlank c = true) (behind : ∀ c ∈ after, isBlank c = true)
    (spelled : Number.Spelled word) : Spells (before ++ (word ++ after)) word word := by
  have solid := isBlank_of_spelled spelled
  have tight : Text.Tight isBlank word :=
    ⟨fun c first => solid c (List.mem_of_head? first),
      fun c last => solid c (List.mem_of_getLast? last)⟩
  exact .one (.intro front behind tight (.last (isWord_of_spelled spelled)))

theorem Ranged.exists_spells (ranged : Ranged text min max) :
    ∃ low high, Spells text low high ∧ Denotes low min ∧ Denotes high max := by
  cases ranged with
  | @one _ numeral _ _ front behind denotes =>
    exact ⟨numeral, numeral, spells_of_spelled front behind denotes.spelled, denotes, denotes⟩
  | @two _ low gap high _ _ _ front behind between first second =>
    have word := isWord_of_spelled first.spelled
    have word' := isWord_of_spelled second.spelled
    have tight := tight_append_append gap word.content word'.content
      (isBlank_of_spelled first.spelled) (isBlank_of_spelled second.spelled)
    exact ⟨low, high, .two (.intro front behind tight (.next word between (.last word'))),
      first, second⟩

theorem Spells.ranged (spells : Spells text low high) (first : Denotes low min)
    (second : Denotes high max) : Ranged text min max := by
  cases spells with
  | one worded =>
    obtain ⟨front, behind, -, row⟩ := worded
    cases row with
    | last _ =>
      cases first.unique second
      exact .one front behind first
  | two worded =>
    obtain ⟨front, behind, -, row⟩ := worded
    cases row with
    | next _ between row =>
      cases row with
      | last _ => exact .two front behind between first second

/-- The bounds of a text are those that its words denote. -/
theorem ranged_iff :
    Ranged text min max ↔ ∃ low high, Spells text low high ∧ Denotes low min ∧ Denotes high max :=
  ⟨Ranged.exists_spells, fun ⟨_, _, spells, first, second⟩ => spells.ranged first second⟩

end Texts

section Bounds

variable {text : List Char} {min max : Int64}

theorem bounded_intBound_iff :
    Bounded intBound text min max ↔ Ranged text min.toInt max.toInt ∧ min ≤ max := by
  rw [ranged_iff]
  constructor
  · rintro ⟨spells, first, second, ordered⟩
    exact ⟨⟨_, _, spells, Number.readInt64?_eq_some_iff.mp first,
      Number.readInt64?_eq_some_iff.mp second⟩, of_decide_eq_true ordered⟩
  · rintro ⟨⟨low, high, spells, first, second⟩, ordered⟩
    exact ⟨spells, Number.readInt64?_eq_some_iff.mpr first,
      Number.readInt64?_eq_some_iff.mpr second, decide_eq_true ordered⟩

/-- A range is refused when the text has bounds, and they are not in order. -/
theorem boundsFault_range_iff :
    (∃ low high, BoundsFault intBound text (.badRange low high)) ↔
      ∃ min max : Int64, Ranged text min.toInt max.toInt ∧ max < min := by
  constructor
  · rintro ⟨low, high, fault⟩
    cases fault with
    | @order _ _ min max spells first second disordered =>
      refine ⟨min, max, ranged_iff.mpr ⟨low, high, spells, Number.readInt64?_eq_some_iff.mp first,
        Number.readInt64?_eq_some_iff.mp second⟩, ?_⟩
      exact Int64.not_le.mp (of_decide_eq_false disordered)
  · rintro ⟨min, max, ranged, disordered⟩
    obtain ⟨low, high, spells, first, second⟩ := ranged_iff.mp ranged
    exact ⟨low, high, .order spells (Number.readInt64?_eq_some_iff.mpr first)
      (Number.readInt64?_eq_some_iff.mpr second) (decide_eq_false (Int64.not_le.mpr disordered))⟩

/-- A number is refused when the text has no bounds. -/
theorem boundsFault_number_iff :
    (∃ word, BoundsFault intBound text (.badNumber word)) ↔
      ∀ min max : Int64, ¬ Ranged text min.toInt max.toInt := by
  constructor
  · rintro ⟨word, fault⟩ min max ranged
    -- A text with bounds in order is accepted, and one with others is refused for its range.
    have refused := readBounds_of_fault fault
    rcases Int64.le_or_lt min max with ordered | disordered
    · cases refused.symm.trans (readBounds_of_bounded (bounded_intBound_iff.mpr ⟨ranged, ordered⟩))
    · obtain ⟨low, high, fault'⟩ := boundsFault_range_iff.mpr ⟨min, max, ranged, disordered⟩
      cases refused.symm.trans (readBounds_of_fault fault')
  · intro never
    rcases bounded_or_fault intBound text with ⟨min, max, bounded⟩ | ⟨why, fault⟩
    · exact absurd (bounded_intBound_iff.mp bounded).1 (never min max)
    · cases why with
      | badNumber word => exact ⟨word, fault⟩
      | badRange low high =>
        obtain ⟨min, max, ranged, -⟩ := boundsFault_range_iff.mp ⟨low, high, fault⟩
        exact absurd ranged (never min max)

end Bounds

/-- What can be wrong with an integer leaf is wrong with its bounds. -/
theorem leafFault_int_iff {name : String} {text : Option String} {why : RuleError} :
    Condition.LeafFault name "int" text why ↔
      ∃ fault, BoundsFault intBound (text.getD "").toList fault ∧
        why = Condition.boundsError name fault := by
  constructor
  · intro leafFault
    cases leafFault with
    | int _ fault => exact ⟨_, fault, rfl⟩
    | float other _ => exact absurd other (by decide)
    | type other _ _ => exact absurd rfl other
  · rintro ⟨fault, wrong, rfl⟩
    exact .int rfl wrong

/-- An integer leaf is accepted exactly with the bounds that its text has, if they
fit into 64 bits and are in order. If they fit but are not in order, the range is
refused, and in every other case a number. -/
theorem ofElement_integer {element : Element}
    (declared : element.attribute? "type" = some "int") :
    (∀ condition, Condition.ofElement element = .ok condition ↔
      ∃ min max : Int64, Ranged (element.text.getD "").toList min.toInt max.toInt ∧ min ≤ max ∧
        condition = .int element.name min max) ∧
    ((∃ low high, Condition.ofElement element = .error (.badRange element.name low high)) ↔
      ∃ min max : Int64, Ranged (element.text.getD "").toList min.toInt max.toInt ∧ max < min) ∧
    ((∃ word, Condition.ofElement element = .error (.badNumber element.name word)) ↔
      ∀ min max : Int64, ¬ Ranged (element.text.getD "").toList min.toInt max.toInt) := by
  simp only [ofElement_of_typed declared, Condition.ofLeaf_eq_ok_iff,
    Condition.ofLeaf_eq_error_iff, leafFault_int_iff]
  refine ⟨fun condition => ⟨fun declares => ?_, ?_⟩, ?_, ?_⟩
  · cases declares with
    | int _ bounded =>
      obtain ⟨ranged, ordered⟩ := bounded_intBound_iff.mp bounded
      exact ⟨_, _, ranged, ordered, rfl⟩
    | float other _ => exact absurd other (by decide)
    | string other => exact absurd other (by decide)
  · rintro ⟨min, max, ranged, ordered, rfl⟩
    exact .int rfl (bounded_intBound_iff.mpr ⟨ranged, ordered⟩)
  · rw [← boundsFault_range_iff]
    constructor
    · rintro ⟨low, high, fault, wrong, same⟩
      cases fault with
      | badNumber word => cases same
      | badRange low high => exact ⟨low, high, wrong⟩
    · rintro ⟨low, high, wrong⟩
      exact ⟨_, _, _, wrong, rfl⟩
  · rw [← boundsFault_number_iff]
    constructor
    · rintro ⟨word, fault, wrong, same⟩
      cases fault with
      | badNumber word => exact ⟨word, wrong⟩
      | badRange low high => cases same
    · rintro ⟨word, wrong⟩
      exact ⟨_, _, wrong, rfl⟩

/-- A no-break space in front, leading zeros and both signs, and a line feed behind;
and two bounds that are not in order. -/
theorem ofElement_integer_signed :
    let leaf text : Element := { name := "hp", attributes := [("type", "int")], text := some text }
    Condition.ofElement (leaf "\u00a0-012  +07\n") = .ok (.int "hp" (-12) 7) ∧
      ∃ low high, Condition.ofElement (leaf "0 -1") = .error (.badRange "hp" low high) := by
  intro leaf
  have wide : Ranged "\u00a0-012  +07\n".toList (-12 : Int64).toInt (7 : Int64).toInt := by
    have cut : "\u00a0-012  +07\n".toList =
        ['\u00a0'] ++ (['-', '0', '1', '2'] ++ ([' ', ' '] ++ ['+', '0', '7']) ++ ['\n']) := rfl
    rw [cut]
    exact .two (List.forall_mem_singleton.mpr rfl) (List.forall_mem_singleton.mpr rfl)
      ⟨by decide, by simp⟩ (.minus (by decide)) (.plus (by decide))
  have inverted : Ranged "0 -1".toList (0 : Int64).toInt (-1 : Int64).toInt := by
    have cut : "0 -1".toList = [] ++ (['0'] ++ ([' '] ++ ['-', '1']) ++ []) := rfl
    rw [cut]
    exact .two (by simp) (by simp) ⟨by decide, by simp⟩ (.unsigned (by decide))
      (.minus (by decide))
  have accepted := (@ofElement_integer (leaf "\u00a0-012  +07\n") (by decide)).1
  have refused := (@ofElement_integer (leaf "0 -1") (by decide)).2.1
  exact ⟨(accepted _).mpr ⟨_, _, wide, by decide, rfl⟩, refused.mpr ⟨_, _, inverted, by decide⟩⟩

end RuleNet.Rule
