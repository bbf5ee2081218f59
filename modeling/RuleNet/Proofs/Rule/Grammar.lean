import Mathlib.Data.List.Forall2
import RuleNet.Proofs.Text.Trimming
import RuleNet.Rule.Condition

/-!
# The grammar of numeric bounds

A text has a row of words: blanks at its ends do not count, and spaces separate
the words (`Worded`). Its one or two words spell the bounds (`Spells`), and what
can be wrong with them is listed (`BoundsFault`). The reader follows this grammar.

* `words_trim_eq_iff`: the reader finds the words of a text.
* `readBounds_eq_ok_iff`: it accepts the bounds that are spelled, if they are numbers in order.
* `readBounds_eq_error_iff`: else it reports what is wrong.
* `Condition.ofLeaf_eq_ok_iff`, `Condition.ofLeaf_eq_error_iff`: so do the leaves of conditions.
* `Condition.ofElement_inv`: the elements that are accepted.
-/

namespace RuleNet.Rule

open Text (isBlank trim Tight)

/-! ## Rows of words -/

/-- A word has characters, and the space is not among them. -/
structure IsWord (word : List Char) : Prop where
  content : word ≠ []
  noSpace : ' ' ∉ word

/-- A gap is a run of spaces. -/
structure IsGap (gap : List Char) : Prop where
  content : gap ≠ []
  spaces : ∀ c ∈ gap, c = ' '

/-- Words with gaps between them, and nothing around them. -/
inductive Row : List Char → List (List Char) → Prop
  | none : Row [] []
  | last {word : List Char} : IsWord word → Row word [word]
  | next {word gap rest next : List Char} {others : List (List Char)} :
      IsWord word → IsGap gap → Row rest (next :: others) →
      Row (word ++ (gap ++ rest)) (word :: next :: others)

/-- The words of a text, blanks at whose ends do not count. -/
inductive Worded : List Char → List (List Char) → Prop
  | intro {before inner after : List Char} {found : List (List Char)} :
      (∀ c ∈ before, isBlank c = true) → (∀ c ∈ after, isBlank c = true) → Tight isBlank inner →
      Row inner found → Worded (before ++ (inner ++ after)) found

section Words

variable {text word gap rest : List Char} {found : List (List Char)}

theorem wordsFrom_append {run : List Char} (noSpace : ' ' ∉ run) (read rest : List Char) :
    wordsFrom read (run ++ rest) = wordsFrom (run.reverse ++ read) rest := by
  induction run generalizing read with
  | nil => rfl
  | cons c run ih =>
    obtain ⟨other, noSpace⟩ := not_or.mp (mt List.mem_cons.mpr noSpace)
    rw [List.cons_append, wordsFrom, if_neg (Ne.symm other), ih noSpace, List.reverse_cons,
      List.append_assoc]
    rfl

theorem words_of_isWord (word : IsWord text) : words text = [text] := by
  have all := wordsFrom_append word.noSpace [] []
  rw [List.append_nil, List.append_nil] at all
  rw [words, all, wordsFrom, if_neg, List.reverse_reverse]
  rw [List.isEmpty_iff, List.reverse_eq_nil_iff]
  exact word.content

theorem words_spaces (spaces : ∀ c ∈ gap, c = ' ') (rest : List Char) :
    words (gap ++ rest) = words rest := by
  induction gap with
  | nil => rfl
  | cons c gap ih =>
    obtain rfl := spaces c List.mem_cons_self
    exact ih fun d member => spaces d (List.mem_cons_of_mem _ member)

/-- A gap ends a word. -/
theorem words_append (first : IsWord word) (between : IsGap gap) (rest : List Char) :
    words (word ++ (gap ++ rest)) = word :: words rest := by
  cases gap with
  | nil => exact absurd rfl between.content
  | cons c gap =>
    obtain rfl := between.spaces c List.mem_cons_self
    have ended : word.reverse.isEmpty = false :=
      List.isEmpty_eq_false_iff.mpr (mt List.reverse_eq_nil_iff.mp first.content)
    rw [words, wordsFrom_append first.noSpace, List.append_nil, List.cons_append, wordsFrom,
      if_pos rfl, ended, if_neg Bool.false_ne_true, List.reverse_reverse, ← words,
      words_spaces fun d member => between.spaces d (List.mem_cons_of_mem _ member)]

theorem words_of_row (row : Row text found) : words text = found := by
  induction row with
  | none => rfl
  | last word => exact words_of_isWord word
  | next word gap _ ih => rw [words_append word gap, ih]

/-- What stands before the first space, and what follows the gap there. -/
theorem exists_cut (start : text.head? ≠ some ' ') (content : text ≠ []) :
    IsWord text ∨ ∃ word gap rest, text = word ++ (gap ++ rest) ∧ IsWord word ∧ IsGap gap ∧
      rest.head? ≠ some ' ' := by
  by_cases space : ' ' ∈ text
  · obtain ⟨word, behind, rfl, noSpace⟩ := List.eq_append_cons_of_mem space
    have first : word ≠ [] := fun empty => start (by rw [empty]; rfl)
    refine .inr ⟨word, ' ' :: behind.takeWhile (· == ' '), behind.dropWhile (· == ' '), ?_,
      ⟨first, noSpace⟩, ⟨List.cons_ne_nil _ _, ?_⟩, ?_⟩
    · rw [List.cons_append, List.takeWhile_append_dropWhile]
    · intro c member
      rcases List.mem_cons.mp member with rfl | member
      · rfl
      · exact eq_of_beq (List.all_eq_true.mp List.all_takeWhile c member)
    · intro head
      have kept := List.head?_dropWhile_not (· == ' ') behind
      rw [head] at kept
      cases kept
  · exact .inl ⟨content, space⟩

/-- The words of a text that neither starts nor ends with a space stand in a row. -/
theorem row_words {text : List Char} (start : text.head? ≠ some ' ')
    (ending : text.getLast? ≠ some ' ') : Row text (words text) := by
  by_cases content : text = []
  · subst content
    exact .none
  rcases exists_cut start content with word | ⟨word, gap, rest, rfl, first, between, start'⟩
  · rw [words_of_isWord word]
    exact .last word
  · have more : rest ≠ [] := by
      rintro rfl
      rw [List.append_nil, List.getLast?_append_of_ne_nil _ between.content] at ending
      exact ending ((List.getLast?_eq_some_getLast between.content).trans
        (congrArg some (between.spaces _ (List.getLast_mem between.content))))
    have shorter : rest.length < (word ++ (gap ++ rest)).length := by
      have := List.length_pos_iff.mpr first.content
      rw [List.length_append, List.length_append]
      omega
    rw [← List.append_assoc, List.getLast?_append_of_ne_nil _ more] at ending
    have row := row_words start' ending
    rw [words_append first between]
    cases others : words rest with
    | nil =>
      rw [others] at row
      cases row
      exact absurd rfl more
    | cons next others =>
      rw [others] at row
      exact .next first between row
termination_by text.length

/-- The words that the reader finds are those of the text. -/
theorem words_trim_eq_iff : words (trim isBlank text) = found ↔ Worded text found := by
  constructor
  · rintro rfl
    obtain ⟨before, after, front, behind, same⟩ := Text.exists_trim isBlank text
    have tight := Text.tight_trim isBlank text
    have apart : ∀ {c : Char}, isBlank c = false → c ≠ ' ' := by
      rintro c blank rfl
      cases blank
    have row : Row (trim isBlank text) (words (trim isBlank text)) :=
      row_words (fun head => apart (tight.head _ head) rfl)
        fun last => apart (tight.last _ last) rfl
    have worded := Worded.intro front behind tight row
    rwa [← same] at worded
  · rintro ⟨front, behind, tight, row⟩
    rw [Text.trim_append_of_pos front behind, Text.trim_eq_self_iff.mpr tight, words_of_row row]

end Words

/-! ## Results and faults -/

/-- A result that is specified on both sides, by what it can be and by what can be wrong. -/
structure Specified {ε α : Type} (result : Except ε α) (Holds : α → Prop) (Fails : ε → Prop) :
    Prop where
  either : (∃ value, Holds value) ∨ ∃ why, Fails why
  ok : ∀ {value}, Holds value → result = .ok value
  error : ∀ {why}, Fails why → result = .error why

namespace Specified

variable {ε α : Type} {result : Except ε α} {Holds : α → Prop} {Fails : ε → Prop} {value : α}
  {why : ε}

theorem eq_ok_iff (specified : Specified result Holds Fails) :
    result = .ok value ↔ Holds value := by
  constructor
  · rintro rfl
    rcases specified.either with ⟨value', holds⟩ | ⟨why, fails⟩
    · cases specified.ok holds
      exact holds
    · cases specified.error fails
  · exact specified.ok

theorem eq_error_iff (specified : Specified result Holds Fails) :
    result = .error why ↔ Fails why := by
  constructor
  · rintro rfl
    rcases specified.either with ⟨value, holds⟩ | ⟨why', fails⟩
    · cases specified.ok holds
    · cases specified.error fails
      exact fails
  · exact specified.error

end Specified

/-! ## Bounds -/

/-- The text spells its bounds with these words; a single word spells both. -/
inductive Spells : List Char → List Char → List Char → Prop
  | one {text word : List Char} : Worded text [word] → Spells text word word
  | two {text low high : List Char} : Worded text [low, high] → Spells text low high

/-- The text spells two numbers, the first below or at the second. -/
inductive Bounded {α : Type} (kind : BoundType α) (text : List Char) : α → α → Prop
  | intro {low high : List Char} {min max : α} :
      Spells text low high → kind.read? low = some min → kind.read? high = some max →
      kind.le min max = true → Bounded kind text min max

/-- What is wrong with a text that holds no bounds: it has no words or too many, a
word is no number, or the first number is not below or at the second. -/
inductive BoundsFault {α : Type} (kind : BoundType α) (text : List Char) : BoundsError → Prop
  | count {found : List (List Char)} :
      Worded text found → found.length ≠ 1 → found.length ≠ 2 →
      BoundsFault kind text (.badNumber text)
  | low {low high : List Char} :
      Spells text low high → kind.read? low = none → BoundsFault kind text (.badNumber low)
  | high {low high : List Char} {min : α} :
      Spells text low high → kind.read? low = some min → kind.read? high = none →
      BoundsFault kind text (.badNumber high)
  | order {low high : List Char} {min max : α} :
      Spells text low high → kind.read? low = some min → kind.read? high = some max →
      kind.le min max = false → BoundsFault kind text (.badRange low high)

section Bounds

variable {α : Type} {kind : BoundType α} {text low high : List Char} {min max : α}
  {why : BoundsError}

/-- Either words spell the bounds, or the number of words is wrong. -/
theorem spells_or_miscounted (text : List Char) :
    (∃ low high, Spells text low high) ∨
      ∃ found, Worded text found ∧ found.length ≠ 1 ∧ found.length ≠ 2 := by
  have worded := words_trim_eq_iff.mp (Eq.refl (words (trim isBlank text)))
  match found : words (trim isBlank text) with
  | [] => exact .inr ⟨[], found ▸ worded, by decide, by decide⟩
  | [word] => exact .inl ⟨word, word, .one (found ▸ worded)⟩
  | [low, high] => exact .inl ⟨low, high, .two (found ▸ worded)⟩
  | first :: second :: third :: others =>
    refine .inr ⟨_, found ▸ worded, ?_, ?_⟩
    all_goals
      simp only [List.length_cons]
      omega

/-- A text has bounds, or something is wrong with it. -/
theorem bounded_or_fault (kind : BoundType α) (text : List Char) :
    (∃ min max, Bounded kind text min max) ∨ ∃ why, BoundsFault kind text why := by
  rcases spells_or_miscounted text with ⟨low, high, spells⟩ | ⟨found, worded, notOne, notTwo⟩
  · cases first : kind.read? low with
    | none => exact .inr ⟨_, .low spells first⟩
    | some min =>
      cases second : kind.read? high with
      | none => exact .inr ⟨_, .high spells first second⟩
      | some max =>
        cases ordered : kind.le min max with
        | true => exact .inl ⟨min, max, .intro spells first second ordered⟩
        | false => exact .inr ⟨_, .order spells first second ordered⟩
  · exact .inr ⟨_, .count worded notOne notTwo⟩

theorem readBounds_of_spells (spells : Spells text low high) :
    readBounds kind text = readRange kind low high := by
  unfold readBounds
  cases spells with
  | one worded => rw [words_trim_eq_iff.mpr worded]
  | two worded => rw [words_trim_eq_iff.mpr worded]

theorem readBounds_of_bounded (bounded : Bounded kind text min max) :
    readBounds kind text = .ok (min, max) := by
  obtain ⟨spells, first, second, ordered⟩ := bounded
  rw [readBounds_of_spells spells]
  simp [readRange, readBound, first, second, ordered, bind, Except.bind, pure, Except.pure]

theorem readBounds_of_fault (fault : BoundsFault kind text why) :
    readBounds kind text = .error why := by
  cases fault with
  | count worded notOne notTwo =>
    unfold readBounds
    rw [words_trim_eq_iff.mpr worded]
    split
    · exact absurd rfl notOne
    · exact absurd rfl notTwo
    · rfl
  | low spells first =>
    rw [readBounds_of_spells spells]
    simp [readRange, readBound, first, bind, Except.bind]
  | high spells first second =>
    rw [readBounds_of_spells spells]
    simp [readRange, readBound, first, second, bind, Except.bind]
  | order spells first second ordered =>
    rw [readBounds_of_spells spells]
    simp [readRange, readBound, first, second, ordered, bind, Except.bind, throw, throwThe,
      MonadExceptOf.throw]

theorem specified_readBounds (kind : BoundType α) (text : List Char) :
    Specified (readBounds kind text) (fun range => Bounded kind text range.1 range.2)
      (BoundsFault kind text) where
  either :=
    (bounded_or_fault kind text).imp_left fun ⟨min, max, bounded⟩ => ⟨(min, max), bounded⟩
  ok := readBounds_of_bounded
  error := readBounds_of_fault

/-- The bounds that are read are those that are spelled. -/
theorem readBounds_eq_ok_iff :
    readBounds kind text = .ok (min, max) ↔ Bounded kind text min max :=
  (specified_readBounds kind text).eq_ok_iff

/-- What is reported is wrong with the text. -/
theorem readBounds_eq_error_iff :
    readBounds kind text = .error why ↔ BoundsFault kind text why :=
  (specified_readBounds kind text).eq_error_iff

/-- Bounds are written in a text. -/
theorem exists_text_of_bounded {text : Option String}
    (bounded : Bounded kind (text.getD "").toList min max) : ∃ content, text = some content := by
  cases text with
  | some content => exact ⟨content, rfl⟩
  | none =>
    have read := readBounds_of_bounded bounded
    cases read

end Bounds

/-! ## Leaves -/

namespace Condition

/-- What a declared type and a text define. -/
inductive Declares (name typeName : String) (text : Option String) : Condition → Prop
  | int {min max : Int64} :
      typeName = "int" → Bounded intBound (text.getD "").toList min max →
      Declares name typeName text (.int name min max)
  | float {min max : Number.Binary64} :
      typeName = "float" → Bounded floatBound (text.getD "").toList min max →
      Declares name typeName text (.float name min max)
  | string : typeName = "string" → Declares name typeName text (.string name (text.getD ""))

/-- What is wrong with a leaf. -/
inductive LeafFault (name typeName : String) (text : Option String) : RuleError → Prop
  | int {why : BoundsError} :
      typeName = "int" → BoundsFault intBound (text.getD "").toList why →
      LeafFault name typeName text (boundsError name why)
  | float {why : BoundsError} :
      typeName = "float" → BoundsFault floatBound (text.getD "").toList why →
      LeafFault name typeName text (boundsError name why)
  | type :
      typeName ≠ "int" → typeName ≠ "float" → typeName ≠ "string" →
      LeafFault name typeName text (.unknownType name typeName)

section Leaves

variable {name typeName : String} {text : Option String} {condition : Condition} {why : RuleError}

/-- A leaf is defined, or something is wrong with it. -/
theorem declares_or_fault (name typeName : String) (text : Option String) :
    (∃ condition, Declares name typeName text condition) ∨
      ∃ why, LeafFault name typeName text why := by
  by_cases isInt : typeName = "int"
  · rcases bounded_or_fault intBound (text.getD "").toList with ⟨min, max, bounded⟩ | ⟨why, fault⟩
    · exact .inl ⟨_, .int isInt bounded⟩
    · exact .inr ⟨_, .int isInt fault⟩
  by_cases isFloat : typeName = "float"
  · rcases bounded_or_fault floatBound (text.getD "").toList with ⟨min, max, bounded⟩ | ⟨why, fault⟩
    · exact .inl ⟨_, .float isFloat bounded⟩
    · exact .inr ⟨_, .float isFloat fault⟩
  by_cases isString : typeName = "string"
  · exact .inl ⟨_, .string isString⟩
  · exact .inr ⟨_, .type isInt isFloat isString⟩

theorem ofLeaf_of_declares (declares : Declares name typeName text condition) :
    ofLeaf name typeName text = .ok condition := by
  cases declares with
  | int isInt bounded =>
    simp [ofLeaf, isInt, readBounds_of_bounded bounded, Except.map, Except.mapError]
  | float isFloat bounded =>
    simp [ofLeaf, isFloat, readBounds_of_bounded bounded, Except.map, Except.mapError]
  | string isString => simp [ofLeaf, isString]

theorem ofLeaf_of_fault (fault : LeafFault name typeName text why) :
    ofLeaf name typeName text = .error why := by
  cases fault with
  | int isInt fault =>
    simp [ofLeaf, isInt, readBounds_of_fault fault, Except.map, Except.mapError]
  | float isFloat fault =>
    simp [ofLeaf, isFloat, readBounds_of_fault fault, Except.map, Except.mapError]
  | type isInt isFloat isString => simp [ofLeaf, isInt, isFloat, isString]

theorem specified_ofLeaf (name typeName : String) (text : Option String) :
    Specified (ofLeaf name typeName text) (Declares name typeName text)
      (LeafFault name typeName text) where
  either := declares_or_fault name typeName text
  ok := ofLeaf_of_declares
  error := ofLeaf_of_fault

/-- A leaf that is accepted is the one that is declared. -/
theorem ofLeaf_eq_ok_iff :
    ofLeaf name typeName text = .ok condition ↔ Declares name typeName text condition :=
  (specified_ofLeaf name typeName text).eq_ok_iff

/-- What is reported is wrong with the leaf. -/
theorem ofLeaf_eq_error_iff :
    ofLeaf name typeName text = .error why ↔ LeafFault name typeName text why :=
  (specified_ofLeaf name typeName text).eq_error_iff

end Leaves

/-! ## Elements -/

/-- Conditions for several elements are one for each. -/
theorem ofElements_eq_ok {elements : List Markup.Element} {conditions : List Condition}
    (accepted : ofElements elements = .ok conditions) :
    List.Forall₂ (fun element condition => ofElement element = .ok condition)
      elements conditions := by
  induction elements generalizing conditions with
  | nil =>
    cases accepted
    exact .nil
  | cons element rest ih =>
    rw [ofElements] at accepted
    cases first : ofElement element with
    | error why => rw [first] at accepted; cases accepted
    | ok condition =>
      cases others : ofElements rest with
      | error why => rw [first, others] at accepted; cases accepted
      | ok conditions =>
        rw [first, others] at accepted
        cases accepted
        exact .cons first (ih others)

/-- An accepted element declares a leaf, or it is a group of accepted elements. -/
theorem ofElement_inv {element : Markup.Element} {condition : Condition}
    (accepted : ofElement element = .ok condition) :
    (∃ typeName, element.attribute? "type" = some typeName ∧
      Declares element.name typeName element.text condition) ∨
    (∃ children, element.attribute? "type" = none ∧
      List.Forall₂ (fun element condition => ofElement element = .ok condition)
        element.children children ∧
      condition = .group element.name children) := by
  obtain ⟨name, attributes, text, children⟩ := element
  rw [ofElement] at accepted
  cases declared : attributes.lookup "type" with
  | some typeName =>
    rw [declared] at accepted
    exact .inl ⟨typeName, declared, ofLeaf_eq_ok_iff.mp accepted⟩
  | none =>
    rw [declared] at accepted
    cases all : ofElements children with
    | error why => rw [all] at accepted; cases accepted
    | ok conditions =>
      rw [all] at accepted
      cases accepted
      exact .inr ⟨conditions, declared, ofElements_eq_ok all, rfl⟩

end Condition

end RuleNet.Rule
