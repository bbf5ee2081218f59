import RuleNet.Markup.Document
import RuleNet.Proofs.Markup.Escaping
import RuleNet.Proofs.Number.Spelling
import RuleNet.Proofs.Rule.CanonicalText
import RuleNet.Proofs.Rule.Grammar

/-!
# Numeric bounds in canonical texts

Canonicalization drops the gap between two numbers unless the second one starts
with a digit. What remains still tells the two numbers, with one exception: a
number with a point can be taken apart in front of its point (`Glued`).

* `spells_of_canonicalize_eq`: texts with the same canonical text spell the same bounds, or one
  is the other taken apart.
* `numeric_eq_of_canonical`: numeric leaves that differ only in their texts and have the same
  key are the same condition, with this exception among floating-point numbers.
* `glued_bounds_canonical`: the exception occurs.
-/

namespace RuleNet.Rule

open Markup (Element escape isSpecial)
open Number (Spelled)
open Text (isBlank trim Tight)

/-! ## Canonical texts of words -/

section Canonical

variable {text word low high gap rest : List Char}

/-- A word without blanks is kept. -/
theorem canonicalize_word_append (solid : ∀ c ∈ word, isBlank c = false) (rest : List Char) :
    canonicalize (word ++ rest) = word ++ canonicalize rest := by
  refine canonicalize_solid_append (fun c member => ?_) rest
  cases layout : Text.isLayout c with
  | false => rfl
  | true =>
    have blank := Text.isBlank_of_isLayout layout
    rw [solid c member] at blank
    cases blank

theorem canonicalize_gap_append (between : IsGap gap) (rest : List Char) :
    canonicalize (gap ++ rest) = separator rest ++ canonicalize rest := by
  obtain ⟨content, spaces⟩ := between
  induction gap with
  | nil => exact absurd rfl content
  | cons c more ih =>
    obtain rfl := spaces c List.mem_cons_self
    cases more with
    | nil => exact canonicalize_space rest
    | cons d more =>
      have later : ∀ c ∈ d :: more, c = ' ' := fun c member =>
        spaces c (List.mem_cons_of_mem _ member)
      obtain rfl := later d List.mem_cons_self
      rw [List.cons_append, canonicalize, if_pos (by rfl)]
      exact ih (List.cons_ne_nil _ _) later

/-- What the canonical text has of two words. -/
def joined (low high : List Char) : List Char :=
  low ++ (separator high ++ high)

theorem tight_append_append (middle : List Char) (content : low ≠ []) (content' : high ≠ [])
    (solid : ∀ c ∈ low, isBlank c = false) (solid' : ∀ c ∈ high, isBlank c = false) :
    Tight isBlank (low ++ (middle ++ high)) where
  head := by
    intro c first
    rw [List.head?_append_of_ne_nil _ content] at first
    exact solid c (List.mem_of_head? first)
  last := by
    intro c final
    rw [← List.append_assoc, List.getLast?_append_of_ne_nil _ content'] at final
    exact solid' c (List.mem_of_getLast? final)

/-- Blanks at the ends do not matter, kept or not. -/
theorem trim_canonicalize {before inner after kept : List Char}
    (front : ∀ c ∈ before, isBlank c = true) (behind : ∀ c ∈ after, isBlank c = true)
    (tight : Tight isBlank kept)
    (same : canonicalize (inner ++ after) = kept ++ canonicalize after) :
    trim isBlank (canonicalize (before ++ (inner ++ after))) = kept := by
  obtain ⟨first, sub, start⟩ := exists_canonicalize_append before (inner ++ after)
  have blank : ∀ c ∈ first, isBlank c = true := fun c member => front c (sub.subset member)
  have blank' : ∀ c ∈ canonicalize after, isBlank c = true := fun c member =>
    behind c ((canonicalize_sublist after).subset member)
  rw [start, same, Text.trim_append_of_pos blank blank', Text.trim_eq_self_iff.mpr tight]

/-- The canonical text of one word. -/
theorem trim_canonicalize_one (worded : Worded text [word])
    (solid : ∀ c ∈ word, isBlank c = false) : trim isBlank (canonicalize text) = word := by
  obtain ⟨front, behind, tight, row⟩ := worded
  cases row with
  | last _ => exact trim_canonicalize front behind tight (canonicalize_word_append solid _)

/-- The canonical text of two words. -/
theorem trim_canonicalize_two (worded : Worded text [low, high])
    (solid : ∀ c ∈ low, isBlank c = false) (solid' : ∀ c ∈ high, isBlank c = false) :
    trim isBlank (canonicalize text) = joined low high := by
  obtain ⟨front, behind, -, row⟩ := worded
  cases row with
  | @next _ gap _ _ _ first between row =>
    cases row with
    | last second =>
      refine trim_canonicalize front behind
        (tight_append_append _ first.content second.content solid solid') ?_
      rw [List.append_assoc, List.append_assoc, canonicalize_word_append solid,
        canonicalize_gap_append between, canonicalize_word_append solid', separator,
        List.head?_append_of_ne_nil _ second.content, ← separator, joined, List.append_assoc,
        List.append_assoc]

end Canonical

/-! ## Numbers as words -/

theorem isBlank_of_spelled {word : List Char} (spelled : Spelled word) :
    ∀ c ∈ word, isBlank c = false := fun c member =>
  have ⟨_, found⟩ := spelled.exists_mark c member
  Number.isBlank_of_mark? found

theorem isSpecial_of_mark? {c : Char} {mark : Number.Mark} (found : Number.mark? c = some mark) :
    isSpecial c = false := by
  cases special : isSpecial c with
  | false => rfl
  | true =>
    simp only [isSpecial, Bool.or_eq_true, beq_iff_eq] at special
    rcases special with (((rfl | rfl) | rfl) | rfl) | rfl <;> cases found

/-- A number with a point, and its parts in front of the point and from the point on
as two numbers. -/
def Glued (text text' : List Char) : Prop :=
  ∃ front fraction, Worded text [front ++ '.' :: fraction] ∧ Worded text' [front, '.' :: fraction]

section Numbers

variable {text text' word low high low' high' : List Char}

theorem isWord_of_spelled (spelled : Spelled word) : IsWord word where
  content := spelled.ne_nil
  noSpace := fun member => by
    have blank := isBlank_of_spelled spelled ' ' member
    cases blank

/-- Two numbers are two words again if the second one starts with a digit, else one word. -/
theorem words_joined (first : Spelled low) (second : Spelled high) :
    words (joined low high) =
      if high.head?.any Char.isDigit then [low, high] else [low ++ high] := by
  unfold joined separator
  split
  · have space : IsGap [' '] := ⟨List.cons_ne_nil _ _, fun _ => List.eq_of_mem_singleton⟩
    rw [words_append (isWord_of_spelled first) space, words_of_isWord (isWord_of_spelled second)]
  · refine words_of_isWord ⟨?_, fun member => ?_⟩
    · exact List.append_ne_nil_of_left_ne_nil first.ne_nil _
    · rcases List.mem_append.mp member with member | member
      · exact (isWord_of_spelled first).noSpace member
      · exact (isWord_of_spelled second).noSpace member

/-- One number looks like two only where it has its point. -/
theorem eq_append_of_joined (spelled : Spelled word) (first : Spelled low) (second : Spelled high)
    (same : word = joined low high) : word = low ++ high ∧ high.head? = some '.' := by
  have cut := words_joined first second
  rw [← same, words_of_isWord (isWord_of_spelled spelled)] at cut
  split at cut
  · cases cut
  · next noDigit =>
    obtain rfl := List.singleton_inj.mp cut
    exact ⟨rfl, Number.head_of_spelled_append spelled first second
      (Bool.eq_false_iff.mpr noDigit)⟩

/-- Two numbers are told from the canonical text. -/
theorem joined_inj (first : Spelled low) (second : Spelled high) (first' : Spelled low')
    (second' : Spelled high') (same : joined low high = joined low' high') :
    low = low' ∧ high = high' := by
  have cut := words_joined first second
  rw [same, words_joined first' second'] at cut
  split at cut <;> split at cut
  · cases cut
    exact ⟨rfl, rfl⟩
  · cases cut
  · cases cut
  · next noDigit' noDigit =>
    exact Number.eq_of_spelled_append (List.singleton_inj.mp cut.symm) first first' second second'
      (Bool.eq_false_iff.mpr noDigit) (Bool.eq_false_iff.mpr noDigit')

/-- One word and two words with the same canonical text. -/
theorem glued_of_canonicalize_eq (worded : Worded text [word]) (worded' : Worded text' [low, high])
    (spelled : Spelled word) (first : Spelled low) (second : Spelled high)
    (same : canonicalize text = canonicalize text') : Glued text text' := by
  have joined : word = joined low high := by
    rw [← trim_canonicalize_one worded (isBlank_of_spelled spelled), same,
      trim_canonicalize_two worded' (isBlank_of_spelled first) (isBlank_of_spelled second)]
  obtain ⟨rfl, point⟩ := eq_append_of_joined spelled first second joined
  cases high with
  | nil => cases point
  | cons c fraction =>
    cases point
    exact ⟨low, fraction, worded, worded'⟩

/-- Texts with the same canonical text spell the same bounds, or one is the other
taken apart. -/
theorem spells_of_canonicalize_eq (spells : Spells text low high)
    (spells' : Spells text' low' high') (first : Spelled low) (second : Spelled high)
    (first' : Spelled low') (second' : Spelled high')
    (same : canonicalize text = canonicalize text') :
    low = low' ∧ high = high' ∨ Glued text text' ∨ Glued text' text := by
  cases spells with
  | one worded =>
    cases spells' with
    | one worded' =>
      have equal : low = low' := by
        rw [← trim_canonicalize_one worded (isBlank_of_spelled first), same,
          trim_canonicalize_one worded' (isBlank_of_spelled first')]
      exact .inl ⟨equal, equal⟩
    | two worded' =>
      exact .inr (.inl (glued_of_canonicalize_eq worded worded' first first' second' same))
  | two worded =>
    cases spells' with
    | one worded' =>
      exact .inr (.inr (glued_of_canonicalize_eq worded' worded first' first second same.symm))
    | two worded' =>
      refine .inl (joined_inj first second first' second' ?_)
      rw [← trim_canonicalize_two worded (isBlank_of_spelled first) (isBlank_of_spelled second),
        same,
        trim_canonicalize_two worded' (isBlank_of_spelled first') (isBlank_of_spelled second')]

/-- Numbers and blanks are printed as they are. -/
theorem plain_of_spells (spells : Spells text low high) (first : Spelled low)
    (second : Spelled high) : ∀ c ∈ text, isSpecial c = false := by
  have ofBlanks : ∀ {run : List Char}, (∀ c ∈ run, isBlank c = true) →
      ∀ c ∈ run, isSpecial c = false := fun blank c member =>
    Markup.isSpecial_of_isBlank (blank c member)
  have ofSpelled : ∀ {word : List Char}, Spelled word → ∀ c ∈ word, isSpecial c = false :=
    fun spelled c member =>
      have ⟨_, found⟩ := spelled.exists_mark c member
      isSpecial_of_mark? found
  cases spells with
  | one worded =>
    obtain ⟨front, behind, -, row⟩ := worded
    cases row with
    | last _ =>
      simp only [List.forall_mem_append]
      exact ⟨ofBlanks front, ofSpelled first, ofBlanks behind⟩
  | two worded =>
    obtain ⟨front, behind, -, row⟩ := worded
    cases row with
    | next _ between row =>
      cases row with
      | last _ =>
        simp only [List.forall_mem_append]
        refine ⟨ofBlanks front, ⟨ofSpelled first, ?_, ofSpelled second⟩, ofBlanks behind⟩
        intro c member
        rw [between.spaces c member]
        rfl

end Numbers

/-! ## Keys of numeric leaves -/

section Keys

variable {name typeName : String} {attributes : List (String × String)} {text text' : String}
  {condition condition' : Condition}

/-- The text of a leaf within its canonical text. -/
theorem canonicalize_render_text (name : String) (attributes : List (String × String))
    (text : String) :
    canonicalize (Element.render ⟨name, attributes, some text, []⟩) =
      canonicalize (Element.renderHead name attributes) ++
        '>' :: (canonicalize (escape text.toList) ++ canonicalize (Element.renderEnd name)) := by
  rw [Element.render, Option.isNone_some, Bool.false_and, if_neg Bool.false_ne_true,
    Element.renderAll, List.append_nil, canonicalize_append (renderEnd_noDigit name),
    canonicalize_append (by rfl), canonicalize_cons_of_not_isRedundant (by rfl), Option.getD_some,
    List.append_assoc, List.cons_append]

theorem canonicalize_text_of_canonical
    (same : (Key.ofElement ⟨name, attributes, some text, []⟩).canonical =
      (Key.ofElement ⟨name, attributes, some text', []⟩).canonical) :
    canonicalize (escape text.toList) = canonicalize (escape text'.toList) := by
  rw [Key.ofElement, Key.ofElement, Key.canonical_ofCanonical, Key.canonical_ofCanonical,
    String.ofList_inj, canonicalize_render_text, canonicalize_render_text,
    List.append_cancel_left_eq, List.cons.injEq, List.append_cancel_right_eq] at same
  exact same.2

/-- Numbers with the same canonical text are the same bounds, or one is the other
taken apart. -/
theorem bounds_of_canonical {α : Type} {kind : BoundType α} {min max min' max' : α}
    (spelled : ∀ {word : List Char} {value : α}, kind.read? word = some value → Spelled word)
    (bounded : Bounded kind text.toList min max) (bounded' : Bounded kind text'.toList min' max')
    (same : (Key.ofElement ⟨name, attributes, some text, []⟩).canonical =
      (Key.ofElement ⟨name, attributes, some text', []⟩).canonical) :
    min = min' ∧ max = max' ∨ Glued text.toList text'.toList ∨ Glued text'.toList text.toList := by
  obtain ⟨spells, first, second, -⟩ := bounded
  obtain ⟨spells', first', second', -⟩ := bounded'
  have equal := canonicalize_text_of_canonical same
  rw [Markup.escape_of_plain (plain_of_spells spells (spelled first) (spelled second)),
    Markup.escape_of_plain (plain_of_spells spells' (spelled first') (spelled second'))] at equal
  refine (spells_of_canonicalize_eq spells spells' (spelled first) (spelled second)
    (spelled first') (spelled second') equal).imp_left ?_
  rintro ⟨rfl, rfl⟩
  exact ⟨Option.some.inj (first.symm.trans first'), Option.some.inj (second.symm.trans second')⟩

/-- An integer has no point in front of which it could be taken apart. -/
theorem not_glued_of_int {text text' : List Char} {min max : Int64}
    (bounded : Bounded intBound text min max) : ¬ Glued text text' := by
  rintro ⟨front, fraction, worded, -⟩
  obtain ⟨spells, first, -, -⟩ := bounded
  have found := words_trim_eq_iff.mpr worded
  cases spells with
  | one worded' =>
    rw [words_trim_eq_iff.mpr worded'] at found
    cases found
    exact Number.not_mem_of_readInt64? first (by simp)
  | two worded' =>
    rw [words_trim_eq_iff.mpr worded'] at found
    cases found

/-- Numeric leaves with one name and one list of attributes that have the same key are
the same condition, unless the one text is a floating-point number with a point and
the other one has that number taken apart in front of its point. -/
theorem numeric_eq_of_canonical {text text' : Option String}
    (declared : attributes.lookup "type" = some typeName)
    (numeric : typeName = "int" ∨ typeName = "float")
    (accepted : Condition.ofElement ⟨name, attributes, text, []⟩ = .ok condition)
    (accepted' : Condition.ofElement ⟨name, attributes, text', []⟩ = .ok condition')
    (same : (Key.ofElement ⟨name, attributes, text, []⟩).canonical =
      (Key.ofElement ⟨name, attributes, text', []⟩).canonical) :
    condition = condition' ∨ typeName = "float" ∧
      (Glued (text.getD "").toList (text'.getD "").toList ∨
        Glued (text'.getD "").toList (text.getD "").toList) := by
  rw [Condition.ofElement, declared] at accepted accepted'
  have declares := Condition.ofLeaf_eq_ok_iff.mp accepted
  have declares' := Condition.ofLeaf_eq_ok_iff.mp accepted'
  cases declares with
  | int isInt bounded =>
    cases declares' with
    | int _ bounded' =>
      obtain ⟨content, rfl⟩ := exists_text_of_bounded bounded
      obtain ⟨content', rfl⟩ := exists_text_of_bounded bounded'
      rcases bounds_of_canonical Number.spelled_of_readInt64? bounded bounded' same with
        ⟨rfl, rfl⟩ | glued | glued
      · exact .inl rfl
      · exact absurd glued (not_glued_of_int bounded)
      · exact absurd glued (not_glued_of_int bounded')
    | float isFloat => exact absurd (isInt.symm.trans isFloat) (by decide)
    | string isString => exact absurd (isInt.symm.trans isString) (by decide)
  | float isFloat bounded =>
    cases declares' with
    | int isInt => exact absurd (isInt.symm.trans isFloat) (by decide)
    | float _ bounded' =>
      obtain ⟨content, rfl⟩ := exists_text_of_bounded bounded
      obtain ⟨content', rfl⟩ := exists_text_of_bounded bounded'
      rcases bounds_of_canonical Number.spelled_of_readBinary64? bounded bounded' same with
        ⟨rfl, rfl⟩ | glued
      · exact .inl rfl
      · exact .inr ⟨isFloat, glued⟩
    | string isString => exact absurd (isFloat.symm.trans isString) (by decide)
  | string isString => rcases numeric with rfl | rfl <;> exact absurd isString (by decide)

/-- Line breaks around a range and a wider gap in it do not matter. -/
theorem numeric_eq_of_canonical_gap :
    let attributes := [("type", "int")]
    let range : Element := ⟨"hp", attributes, some "-1 5", []⟩
    let spread : Element := ⟨"hp", attributes, some "\n\t-1   5\n", []⟩
    attributes.lookup "type" = some "int" ∧
      Condition.ofElement range = .ok (.int "hp" (-1) 5) ∧
      Condition.ofElement spread = .ok (.int "hp" (-1) 5) ∧
      (Key.ofElement range).canonical = (Key.ofElement spread).canonical ∧
      (Condition.int "hp" (-1) 5 = Condition.int "hp" (-1) 5 ∨ "int" = "float" ∧
        (Glued "-1 5".toList "\n\t-1   5\n".toList ∨
          Glued "\n\t-1   5\n".toList "-1 5".toList)) :=
  ⟨rfl, rfl, rfl, rfl,
    @numeric_eq_of_canonical "hp" "int" [("type", "int")] (.int "hp" (-1) 5) (.int "hp" (-1) 5)
      (some "-1 5") (some "\n\t-1   5\n") rfl (.inl rfl) rfl rfl rfl⟩

/-- An exact bound, and a range that has the same canonical text. -/
theorem glued_bounds_canonical :
    let exact : Element := ⟨"speed", [("type", "float")], some "-1.5", []⟩
    let range : Element := ⟨"speed", [("type", "float")], some "-1 .5", []⟩
    Element.parse "<speed type=\"float\">-1.5</speed>" = .ok exact ∧
      Element.parse "<speed type=\"float\">-1 .5</speed>" = .ok range ∧
      (Key.ofElement exact).canonical = (Key.ofElement range).canonical ∧
      ∃ value min max, Condition.ofElement exact = .ok (.float "speed" value value) ∧
        Condition.ofElement range = .ok (.float "speed" min max) ∧ value ≠ min ∧ value ≠ max := by
  refine ⟨rfl, rfl, rfl, _, _, _, rfl, rfl, ?_, ?_⟩ <;> decide +kernel

end Keys

end RuleNet.Rule
