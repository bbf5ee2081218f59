import Mathlib.Data.List.Basic
import RuleNet.Number.Decimal
import RuleNet.Text.Blank

/-!
# How numbers are spelled

The numerals that are read, integers among them, are followed character by
character by a finite automaton (`Spelled`, `spelled_of_readBinary64?`,
`spelled_of_readInt64?`). With it one can tell where one numeral ends and the
next one starts when nothing stands between them:

* `head_of_spelled_append`: a numeral that consists of two numerals, the second
  of which does not start with a digit, is cut in front of its point.
* `eq_of_spelled_append`: two numerals next to each other, the second of which
  does not start with a digit, are cut in one way only.
-/

namespace RuleNet.Number

open Text (isBlank)

/-! ## The automaton -/

/-- What a character can be in a numeral; letters in either case. -/
inductive Mark where
  | digit
  | sign
  | point
  | a
  | e
  | f
  | i
  | n
  | t
  | y
deriving DecidableEq

/-- What a character is in a numeral, if it can stand there. -/
def mark? (c : Char) : Option Mark :=
  if c.isDigit then some .digit
  else
    match c with
    | '+' | '-' => some .sign
    | '.' => some .point
    | 'a' | 'A' => some .a
    | 'e' | 'E' => some .e
    | 'f' | 'F' => some .f
    | 'i' | 'I' => some .i
    | 'n' | 'N' => some .n
    | 't' | 'T' => some .t
    | 'y' | 'Y' => some .y
    | _ => none

/-- How much of a numeral has been read. -/
inductive Stage where
  | start
  | signed
  /-- Digits, and no point yet. -/
  | whole
  /-- A point without digits before it. -/
  | point
  /-- A point, and digits before or after it. -/
  | fraction
  /-- The letter that starts an exponent. -/
  | exponent
  | exponentSign
  | exponentDigits
  /-- So many letters of `infinity`. -/
  | infinity (read : Nat)
  /-- So many letters of `nan`. -/
  | nan (read : Nat)
deriving DecidableEq

namespace Stage

/-- The stage after one more character. -/
def next : Stage → Mark → Option Stage
  | start, .sign => some signed
  | start, .digit | signed, .digit | whole, .digit => some whole
  | start, .point | signed, .point => some point
  | whole, .point | point, .digit | fraction, .digit => some fraction
  | whole, .e | fraction, .e => some exponent
  | exponent, .sign => some exponentSign
  | exponent, .digit | exponentSign, .digit | exponentDigits, .digit => some exponentDigits
  | start, .i | signed, .i => some (infinity 1)
  | start, .n | signed, .n => some (nan 1)
  | infinity read, letter =>
      if [Mark.i, .n, .f, .i, .n, .i, .t, .y][read]? = some letter then some (infinity (read + 1))
      else none
  | nan read, letter =>
      if [Mark.n, .a, .n][read]? = some letter then some (nan (read + 1)) else none
  | _, _ => none

/-- A numeral can end here. -/
def isFinal : Stage → Bool
  | whole | fraction | exponentDigits | infinity 3 | infinity 8 | nan 3 => true
  | _ => false

/-- The stage after a character. -/
def read (stage : Stage) (c : Char) : Option Stage :=
  (mark? c).bind stage.next

/-- The stage after a text. -/
def readAll (stage : Stage) (text : List Char) : Option Stage :=
  text.foldlM read stage

@[simp] theorem readAll_nil (stage : Stage) : stage.readAll [] = some stage := rfl

theorem readAll_cons (stage : Stage) (c : Char) (rest : List Char) :
    stage.readAll (c :: rest) = (stage.read c).bind fun next => next.readAll rest := by
  unfold readAll
  rw [List.foldlM_cons]
  rfl

theorem readAll_append (stage : Stage) (front back : List Char) :
    stage.readAll (front ++ back) = (stage.readAll front).bind fun next => next.readAll back := by
  unfold readAll
  rw [List.foldlM_append]
  rfl

end Stage

/-- The text is a numeral as far as its spelling goes. -/
def Spelled (text : List Char) : Prop :=
  ∃ stage, Stage.start.readAll text = some stage ∧ stage.isFinal = true

/-! ## The characters of numerals -/

section Characters

variable {c : Char} {mark : Mark}

theorem toNat_lt_of_mark? (h : mark? c = some mark) : c.toNat < 128 := by
  unfold mark? at h
  split at h
  · next digit =>
    simp only [Char.isDigit, Bool.and_eq_true, decide_eq_true_eq] at digit
    exact Nat.lt_of_le_of_lt (UInt32.le_iff_toNat_le.mp digit.2) (by decide)
  · split at h
    all_goals first | decide | cases h

/-- What holds of the first 128 code points can be checked. -/
theorem of_ascii {p : Char → Prop} (all : ∀ n < 128, p (Char.ofNat n)) (small : c.toNat < 128) :
    p c := by
  have here := all c.toNat small
  rwa [Char.ofNat_toNat] at here

theorem isBlank_of_mark? (h : mark? c = some mark) : isBlank c = false := by
  have either : mark? c = none ∨ isBlank c = false :=
    of_ascii (p := fun c => mark? c = none ∨ isBlank c = false) (by decide +kernel)
      (toNat_lt_of_mark? h)
  rcases either with none | other
  · rw [none] at h
    cases h
  · exact other

theorem mark?_toLower (c : Char) : mark? c.toLower = mark? c := by
  by_cases small : c.toNat < 128
  · exact of_ascii (p := fun c => mark? c.toLower = mark? c) (by decide +kernel) small
  · have same : c.toLower = c := by
      unfold Char.toLower
      split
      · next upper =>
        exact absurd (Nat.lt_of_le_of_lt (UInt32.le_iff_toNat_le.mp upper.2) (by decide)) small
      · rfl
    rw [same]

theorem mark?_of_isDigit (digit : c.isDigit = true) : mark? c = some .digit := by
  unfold mark?
  exact if_pos digit

theorem isDigit_of_mark? (h : mark? c = some .digit) : c.isDigit = true := by
  have either : mark? c ≠ some .digit ∨ c.isDigit = true :=
    of_ascii (p := fun c => mark? c ≠ some .digit ∨ c.isDigit = true) (by decide +kernel)
      (toNat_lt_of_mark? h)
  exact either.resolve_left (not_not_intro h)

theorem eq_point_of_mark? (h : mark? c = some .point) : c = '.' := by
  have either : mark? c ≠ some .point ∨ c = '.' :=
    of_ascii (p := fun c => mark? c ≠ some .point ∨ c = '.') (by decide +kernel)
      (toNat_lt_of_mark? h)
  exact either.resolve_left (not_not_intro h)

end Characters

namespace Spelled

variable {text : List Char}

theorem ne_nil (spelled : Spelled text) : text ≠ [] := by
  rintro rfl
  obtain ⟨stage, read, final⟩ := spelled
  cases read
  cases final

/-- Every character of a numeral can stand in one. -/
theorem exists_mark (spelled : Spelled text) : ∀ c ∈ text, ∃ mark, mark? c = some mark := by
  obtain ⟨stage, read, -⟩ := spelled
  revert read
  generalize Stage.start = from'
  intro read c member
  induction text generalizing from' with
  | nil => cases member
  | cons d rest ih =>
    rw [Stage.readAll_cons] at read
    obtain ⟨next, here, later⟩ := Option.bind_eq_some_iff.mp read
    rcases List.mem_cons.mp member with rfl | member
    · obtain ⟨mark, found, -⟩ := Option.bind_eq_some_iff.mp here
      exact ⟨mark, found⟩
    · exact ih next later member

end Spelled

/-! ## What is read is spelled -/

theorem isNumeral_of_map {text : List Char} {f : Nat → Int} {n : Int}
    (found : (readNatural? text).map f = some n) : isNumeral text = true := by
  obtain ⟨m, natural, -⟩ := Option.map_eq_some_iff.mp found
  exact (Option.ite_none_right_eq_some.mp natural).1

/-- The parts of an unsigned decimal numeral. -/
theorem Scientific.read?_eq_some {text : List Char} {value : Scientific}
    (found : Scientific.read? text = some value) :
    ∃ front back, text = front ++ back ∧ front.all Char.isDigit = true ∧
      ((∃ n, front ≠ [] ∧ readExponent? back = some n) ∨
        ∃ fraction rest n, back = '.' :: (fraction ++ rest) ∧ fraction.all Char.isDigit = true ∧
          (front ≠ [] ∨ fraction ≠ []) ∧ readExponent? rest = some n) := by
  refine ⟨text.takeWhile Char.isDigit, text.dropWhile Char.isDigit,
    List.takeWhile_append_dropWhile.symm, List.all_takeWhile, ?_⟩
  unfold Scientific.read? at found
  dsimp only at found
  generalize text.takeWhile Char.isDigit = front at found ⊢
  generalize text.dropWhile Char.isDigit = back at found ⊢
  rw [Option.ite_none_left_eq_some, Bool.and_eq_true, List.isEmpty_iff, List.isEmpty_iff,
    Decidable.not_and_iff_not_or_not] at found
  obtain ⟨content, found⟩ := found
  obtain ⟨n, exponent, -⟩ := Option.map_eq_some_iff.mp found
  cases back with
  | nil => exact .inl ⟨n, content.resolve_right (not_not_intro rfl), exponent⟩
  | cons c rest =>
    by_cases point : c = '.'
    · subst point
      exact .inr ⟨_, _, n, congrArg _ List.takeWhile_append_dropWhile.symm, List.all_takeWhile,
        content, exponent⟩
    · have apart : takeFraction (c :: rest) = ([], c :: rest) := by
        unfold takeFraction
        split
        · next same => exact absurd (List.cons.inj same).1 point
        · rfl
      rw [apart] at content exponent
      exact .inl ⟨n, content.resolve_right (not_not_intro rfl), exponent⟩

namespace Stage

variable {stage digits : Stage} {text : List Char}

theorem read_of_isDigit {c : Char} (digit : c.isDigit = true) :
    stage.read c = stage.next .digit := by
  unfold read
  rw [mark?_of_isDigit digit]
  rfl

/-- A run of digits. -/
theorem readAll_digits (first : stage.next .digit = some digits)
    (more : digits.next .digit = some digits) (numeral : text.all Char.isDigit = true) :
    stage.readAll text = some (if text = [] then stage else digits) := by
  induction text generalizing stage with
  | nil => rfl
  | cons c rest ih =>
    rw [List.all_cons, Bool.and_eq_true] at numeral
    rw [readAll_cons, read_of_isDigit numeral.1, first, Option.bind_some, ih more numeral.2,
      if_neg (List.cons_ne_nil c rest), ite_self]

theorem readAll_isNumeral (first : stage.next .digit = some digits)
    (more : digits.next .digit = some digits) (numeral : isNumeral text = true) :
    stage.readAll text = some digits := by
  rw [isNumeral, Bool.and_eq_true, Bool.not_eq_true', List.isEmpty_eq_false_iff] at numeral
  rw [readAll_digits first more numeral.2, if_neg numeral.1]

/-- A signed numeral, as an integer or as an exponent. -/
theorem readAll_of_readSigned? {begun : Stage} {n : Int}
    (first : stage.next .digit = some digits) (sign : stage.next .sign = some begun)
    (after : begun.next .digit = some digits) (more : digits.next .digit = some digits)
    (found : readSigned? text = some n) : stage.readAll text = some digits := by
  unfold readSigned? at found
  split at found
  · rw [readAll_cons, show stage.read '+' = some begun from sign, Option.bind_some]
    exact readAll_isNumeral after more (isNumeral_of_map found)
  · rw [readAll_cons, show stage.read '-' = some begun from sign, Option.bind_some]
    exact readAll_isNumeral after more (isNumeral_of_map found)
  · exact readAll_isNumeral first more (isNumeral_of_map found)

/-- Upper and lower case do not matter. -/
theorem readAll_toLower (stage : Stage) (text : List Char) :
    stage.readAll (text.map Char.toLower) = stage.readAll text := by
  induction text generalizing stage with
  | nil => rfl
  | cons c rest ih =>
    rw [List.map_cons, readAll_cons, readAll_cons, read, mark?_toLower, ← read]
    exact Option.bind_congr fun next _ => ih next

/-- An exponent behind the digits of a number. -/
theorem readAll_of_readExponent? {n : Int} (mantissa : stage = whole ∨ stage = fraction)
    (found : Scientific.readExponent? text = some n) :
    ∃ last, stage.readAll text = some last ∧ last.isFinal = true := by
  cases text with
  | nil =>
    rcases mantissa with rfl | rfl
    · exact ⟨whole, rfl, rfl⟩
    · exact ⟨fraction, rfl, rfl⟩
  | cons c rest =>
    have start : stage.next .e = some exponent := by
      rcases mantissa with rfl | rfl <;> rfl
    unfold Scientific.readExponent? at found
    rw [Option.ite_none_right_eq_some, Bool.or_eq_true, beq_iff_eq, beq_iff_eq] at found
    obtain ⟨letter, found⟩ := found
    have mark : mark? c = some .e := by
      rcases letter with rfl | rfl <;> rfl
    refine ⟨exponentDigits, ?_, rfl⟩
    rw [readAll_cons, read, mark, Option.bind_some, start, Option.bind_some]
    exact readAll_of_readSigned? rfl rfl rfl rfl found

/-- An unsigned decimal numeral: digits, a point among them, an exponent. -/
theorem readAll_of_scientific? {value : Scientific} (begun : stage = start ∨ stage = signed)
    (found : Scientific.read? text = some value) :
    ∃ last, stage.readAll text = some last ∧ last.isFinal = true := by
  have first : stage.next .digit = some whole ∧ stage.next .point = some point := by
    rcases begun with rfl | rfl <;> exact ⟨rfl, rfl⟩
  obtain ⟨front, back, rfl, digits, ending⟩ := Scientific.read?_eq_some found
  rw [readAll_append, readAll_digits first.1 rfl digits, Option.bind_some]
  rcases ending with ⟨n, content, exponent⟩ | ⟨fraction, rest, n, rfl, more, content, exponent⟩
  · rw [if_neg content]
    exact readAll_of_readExponent? (.inl rfl) exponent
  · have after : ∃ middle, (if front = [] then stage else whole).read '.' = some middle ∧
        middle.readAll fraction = some .fraction := by
      by_cases empty : front = []
      · have digit : fraction ≠ [] := content.resolve_left (not_not_intro empty)
        refine ⟨point, by rw [if_pos empty]; exact first.2, ?_⟩
        rw [readAll_digits rfl rfl more, if_neg digit]
      · refine ⟨.fraction, by rw [if_neg empty]; rfl, ?_⟩
        rw [readAll_digits rfl rfl more, ite_self]
    obtain ⟨middle, pointed, reached⟩ := after
    rw [readAll_cons, pointed, Option.bind_some, readAll_append, reached, Option.bind_some]
    exact readAll_of_readExponent? (.inr rfl) exponent

/-- An unsigned numeral. -/
theorem readAll_of_readMagnitude? {magnitude : Nat} (begun : stage = start ∨ stage = signed)
    (found : readMagnitude? text = some magnitude) :
    ∃ last, stage.readAll text = some last ∧ last.isFinal = true := by
  unfold readMagnitude? at found
  dsimp only at found
  split at found
  · next word =>
    rw [← readAll_toLower]
    rcases word with same | same
    · exact ⟨infinity 3, by rw [same]; rcases begun with rfl | rfl <;> decide, rfl⟩
    · exact ⟨infinity 8, by rw [same]; rcases begun with rfl | rfl <;> decide, rfl⟩
  · split at found
    · next same =>
      rw [← readAll_toLower]
      exact ⟨nan 3, by rw [same]; rcases begun with rfl | rfl <;> decide, rfl⟩
    · obtain ⟨value, decimal, -⟩ := Option.map_eq_some_iff.mp found
      exact readAll_of_scientific? begun decimal

end Stage

theorem spelled_of_readBinary64? {text : List Char} {x : Binary64}
    (found : readBinary64? text = some x) : Spelled text := by
  unfold readBinary64? at found
  split at found
  · obtain ⟨magnitude, found, -⟩ := Option.map_eq_some_iff.mp found
    unfold Spelled
    simp only [Stage.readAll_cons, show Stage.start.read '+' = some .signed from rfl,
      Option.bind_some]
    exact Stage.readAll_of_readMagnitude? (.inr rfl) found
  · obtain ⟨magnitude, found, -⟩ := Option.map_eq_some_iff.mp found
    unfold Spelled
    simp only [Stage.readAll_cons, show Stage.start.read '-' = some .signed from rfl,
      Option.bind_some]
    exact Stage.readAll_of_readMagnitude? (.inr rfl) found
  · obtain ⟨magnitude, found, -⟩ := Option.map_eq_some_iff.mp found
    exact Stage.readAll_of_readMagnitude? (.inl rfl) found

theorem spelled_of_readInt64? {text : List Char} {n : Int64}
    (found : readInt64? text = some n) : Spelled text := by
  obtain ⟨m, found, -⟩ := Option.bind_eq_some_iff.mp found
  exact ⟨.whole, Stage.readAll_of_readSigned? rfl rfl rfl rfl found, rfl⟩

/-- An integer is written without a point. -/
theorem not_mem_of_readInt64? {text : List Char} {n : Int64}
    (found : readInt64? text = some n) : '.' ∉ text := by
  obtain ⟨m, found, -⟩ := Option.bind_eq_some_iff.mp found
  have none : ∀ {rest : List Char}, isNumeral rest = true → '.' ∉ rest := by
    intro rest numeral member
    rw [isNumeral, Bool.and_eq_true, List.all_eq_true] at numeral
    exact absurd (numeral.2 '.' member) (by decide)
  intro member
  unfold readSigned? at found
  split at found
  · exact (List.mem_cons.mp member).elim (by decide) (none (isNumeral_of_map found))
  · exact (List.mem_cons.mp member).elim (by decide) (none (isNumeral_of_map found))
  · exact none (isNumeral_of_map found) member

/-! ## Two numerals in a row -/

namespace Stage

/-- The two stages after one text, read from where a numeral could end and from
the start, when the text does not start with a digit. -/
inductive Parted : Stage → Stage → Prop
  | point : Parted fraction point
  | same {stage : Stage} :
      stage = fraction ∨ stage = exponent ∨ stage = exponentSign ∨ stage = exponentDigits →
      Parted stage stage
  | infinity {n : Nat} : n = 1 ∨ n = 2 → Parted (infinity (n + 3)) (infinity n)

variable {stage within alone within' alone' : Stage} {mark : Mark} {c : Char} {text : List Char}

theorem final_cases (final : stage.isFinal = true) :
    stage = whole ∨ stage = fraction ∨ stage = exponentDigits ∨ stage = infinity 3 ∨
      stage = infinity 8 ∨ stage = nan 3 := by
  unfold isFinal at final
  split at final <;> simp_all

/-- A numeral goes on behind another one at a point, or in the middle of `infinity`. -/
theorem next_final (final : within.isFinal = true) (other : mark ≠ .digit)
    (next : within.next mark = some within') (first : start.next mark = some alone') :
    mark = .point ∧ within' = fraction ∧ alone' = point ∨
      mark = .i ∧ within' = infinity 4 ∧ alone' = infinity 1 := by
  cases mark with
  | digit => exact absurd rfl other
  | a | e | f | t | y => cases first
  | sign | n => rcases final_cases final with rfl | rfl | rfl | rfl | rfl | rfl <;> cases next
  | point =>
    cases first
    rcases final_cases final with rfl | rfl | rfl | rfl | rfl | rfl
    · cases next
      exact .inl ⟨rfl, rfl, rfl⟩
    all_goals cases next
  | i =>
    cases first
    rcases final_cases final with rfl | rfl | rfl | rfl | rfl | rfl
    case inr.inr.inr.inl =>
      cases next
      exact .inr ⟨rfl, rfl, rfl⟩
    all_goals cases next

/-- They stay parted. -/
theorem Parted.next (parted : Parted within alone) (next : within.next mark = some within')
    (first : alone.next mark = some alone') : Parted within' alone' := by
  cases parted with
  | point =>
    cases mark with
    | digit =>
      cases next
      cases first
      exact .same (.inl rfl)
    | sign | point | a | e | f | i | n | t | y => cases first
  | same listed =>
    cases next.symm.trans first
    rcases listed with rfl | rfl | rfl | rfl
    all_goals
      cases mark <;> cases next <;> simp [Parted.same]
  | infinity short =>
    rcases short with rfl | rfl
    · cases mark with
      | n =>
        cases next
        cases first
        exact .infinity (.inr rfl)
      | digit | sign | point | a | e | f | i | t | y => cases first
    · cases mark with
      | f => cases next
      | digit | sign | point | a | e | i | n | t | y => cases first

theorem Parted.readAll (parted : Parted within alone) (next : within.readAll text = some within')
    (first : alone.readAll text = some alone') : Parted within' alone' := by
  induction text generalizing within alone with
  | nil =>
    cases next
    cases first
    exact parted
  | cons c rest ih =>
    rw [readAll_cons] at next first
    obtain ⟨middle, here, next⟩ := Option.bind_eq_some_iff.mp next
    obtain ⟨middle', here', first⟩ := Option.bind_eq_some_iff.mp first
    obtain ⟨mark, found, here⟩ := Option.bind_eq_some_iff.mp here
    rw [read, found, Option.bind_some] at here'
    exact ih (parted.next here here') next first

/-- The letters of infinity lead to letters of infinity. -/
theorem readAll_infinity {n : Nat} (found : (infinity n).readAll text = some stage) :
    ∃ m, stage = infinity m := by
  induction text generalizing n with
  | nil =>
    cases found
    exact ⟨n, rfl⟩
  | cons c rest ih =>
    rw [readAll_cons] at found
    obtain ⟨next, here, found⟩ := Option.bind_eq_some_iff.mp found
    obtain ⟨mark, -, here⟩ := Option.bind_eq_some_iff.mp here
    obtain ⟨-, rfl⟩ : _ ∧ infinity (n + 1) = next := by
      simpa [Stage.next] using here
    exact ih found

/-- A text that does not start with a digit, read behind a numeral and on its own:
it starts with the point, or it is read as letters of infinity. -/
theorem readAll_final (final : within.isFinal = true) (content : text ≠ [])
    (noDigit : text.head?.any Char.isDigit = false) (next : within.readAll text = some within')
    (first : start.readAll text = some alone') :
    Parted within' alone' ∧ (text.head? = some '.' ∨ ∃ n, alone' = infinity n) := by
  cases text with
  | nil => exact absurd rfl content
  | cons c rest =>
    rw [readAll_cons] at next first
    obtain ⟨middle, here, next⟩ := Option.bind_eq_some_iff.mp next
    obtain ⟨middle', here', first⟩ := Option.bind_eq_some_iff.mp first
    obtain ⟨mark, found, here⟩ := Option.bind_eq_some_iff.mp here
    rw [read, found, Option.bind_some] at here'
    have other : mark ≠ .digit := by
      rintro rfl
      have digit : c.isDigit = false := noDigit
      rw [isDigit_of_mark? found] at digit
      cases digit
    rcases next_final final other here here' with ⟨rfl, rfl, rfl⟩ | ⟨rfl, rfl, rfl⟩
    · exact ⟨Parted.point.readAll next first, .inl (congrArg some (eq_point_of_mark? found))⟩
    · exact ⟨(Parted.infinity (.inl rfl)).readAll next first, .inr (readAll_infinity first)⟩

/-- Behind a place where a numeral could end, what goes on with a numeral of its
own has to start with a digit. -/
theorem Parted.eq_digit (parted : Parted within alone) (final : within.isFinal = true)
    (next : alone.next mark = some alone') (first : start.next mark = some within') :
    mark = .digit := by
  cases parted with
  | point => cases mark <;> first | rfl | cases next
  | same listed =>
    rcases listed with rfl | rfl | rfl | rfl
    · cases mark with
      | digit => rfl
      | e => cases first
      | sign | point | a | f | i | n | t | y => cases next
    · cases final
    · cases final
    · cases mark <;> first | rfl | cases next
  | infinity short => rcases short with rfl | rfl <;> cases final

end Stage

section Rows

variable {front back front' back' : List Char}

/-- Where a numeral goes on behind the numeral it starts with. -/
theorem Spelled.exists_final (both : Spelled (front ++ back)) (first : Spelled front) :
    ∃ middle last, middle.isFinal = true ∧ Stage.start.readAll front = some middle ∧
      middle.readAll back = some last ∧ last.isFinal = true := by
  obtain ⟨middle, here, final⟩ := first
  obtain ⟨last, all, final'⟩ := both
  rw [Stage.readAll_append, here, Option.bind_some] at all
  exact ⟨middle, last, final, here, all, final'⟩

/-- A numeral that consists of two numerals, the second of which starts with no
digit, is cut in front of its point. -/
theorem head_of_spelled_append (both : Spelled (front ++ back)) (first : Spelled front)
    (second : Spelled back) (noDigit : back.head?.any Char.isDigit = false) :
    back.head? = some '.' := by
  obtain ⟨middle, last, final, -, behind, final'⟩ := both.exists_final first
  obtain ⟨alone, own, final''⟩ := id second
  obtain ⟨parted, point | ⟨n, rfl⟩⟩ :=
    Stage.readAll_final final second.ne_nil noDigit behind own
  · exact point
  · -- only one or two letters of infinity were read on their own
    cases parted with
    | same listed => simp at listed
    | infinity short => rcases short with rfl | rfl <;> cases final''

/-- The second numeral cannot start inside the longer first one. -/
theorem nil_of_spelled_overlap {overlap : List Char} (first : Spelled front)
    (first' : Spelled (front ++ overlap)) (second : Spelled (overlap ++ back))
    (second' : Spelled back) (noDigit : (overlap ++ back).head?.any Char.isDigit = false)
    (noDigit' : back.head?.any Char.isDigit = false) : overlap = [] := by
  by_cases empty : overlap = []
  · exact empty
  obtain ⟨middle, last, final, -, behind, final'⟩ := first'.exists_final first
  obtain ⟨ending, all, -⟩ := second
  rw [Stage.readAll_append] at all
  obtain ⟨alone, own, later⟩ := Option.bind_eq_some_iff.mp all
  rw [List.head?_append_of_ne_nil _ empty] at noDigit
  have parted := (Stage.readAll_final final empty noDigit behind own).1
  obtain ⟨_, read, -⟩ := id second'
  cases back with
  | nil => exact absurd rfl second'.ne_nil
  | cons c rest =>
    rw [Stage.readAll_cons] at later read
    obtain ⟨_, here, -⟩ := Option.bind_eq_some_iff.mp later
    obtain ⟨_, here', -⟩ := Option.bind_eq_some_iff.mp read
    obtain ⟨mark, found, here⟩ := Option.bind_eq_some_iff.mp here
    rw [Stage.read, found, Option.bind_some] at here'
    cases parted.eq_digit final' here here'
    have digit : c.isDigit = false := noDigit'
    rw [isDigit_of_mark? found] at digit
    cases digit

/-- Two numerals in a row, the second of which starts with no digit, are cut in
one way only. -/
theorem eq_of_spelled_append (same : front ++ back = front' ++ back') (first : Spelled front)
    (first' : Spelled front') (second : Spelled back) (second' : Spelled back')
    (noDigit : back.head?.any Char.isDigit = false)
    (noDigit' : back'.head?.any Char.isDigit = false) : front = front' ∧ back = back' := by
  rcases List.append_eq_append_iff.mp same with ⟨overlap, rfl, rfl⟩ | ⟨overlap, rfl, rfl⟩
  · rw [nil_of_spelled_overlap first first' second second' noDigit noDigit']
    exact ⟨(List.append_nil _).symm, rfl⟩
  · rw [nil_of_spelled_overlap first' first second' second noDigit' noDigit]
    exact ⟨List.append_nil _, rfl⟩

end Rows

end RuleNet.Number
