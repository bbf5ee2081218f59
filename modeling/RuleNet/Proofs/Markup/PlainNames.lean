import RuleNet.Proofs.Markup.RoundTrip

/-!
# Elements with plain names

With names and keys that are words, and with texts that are trimmed already, an
element is read back from its printed form exactly as it is, whatever layout is
added between the pieces (`parse_toMarkup`).
-/

namespace RuleNet.Markup

open Text (isLayout Tight)

/-- An ASCII letter or digit, `_` or `-`. -/
def isWordChar (c : Char) : Bool :=
  c.isAlphanum || c == '_' || c == '-'

/-- A word starts with a letter; letters, digits, `_` and `-` follow. -/
def isWord : List Char → Bool
  | [] => false
  | c :: rest => c.isAlpha && rest.all isWordChar

theorem isWordChar_of_isWord {word : List Char} (h : isWord word = true) :
    ∀ c ∈ word, isWordChar c = true := by
  cases word with
  | nil => cases h
  | cons c rest =>
    unfold isWord at h
    rw [Bool.and_eq_true, List.all_eq_true] at h
    intro d member
    cases member with
    | head =>
      unfold isWordChar Char.isAlphanum
      rw [h.1]
      rfl
    | tail _ member => exact h.2 d member

/-- A character that means something in a tag. -/
def isMark (c : Char) : Bool :=
  isSpecial c || isLayout c || c == '=' || c == '/' || c == '!' || c == '?'

theorem isMark_of_isWordChar {c : Char} (h : isWordChar c = true) : isMark c = false := by
  rw [Bool.eq_false_iff]
  intro mark
  simp only [isMark, isSpecial, isLayout, Bool.or_eq_true, beq_iff_eq, or_assoc] at mark
  rcases mark with rfl | rfl | rfl | rfl | rfl | rfl | rfl | rfl | rfl | rfl | rfl | rfl | rfl <;>
    cases h

section Words

variable {word : List Char}

theorem not_mark_of_isWord (h : isWord word = true) : ∀ c ∈ word,
    isSpecial c = false ∧ isLayout c = false ∧ c ≠ '=' ∧ c ≠ '/' ∧ c ≠ '!' ∧ c ≠ '?' := by
  intro c member
  have mark := isMark_of_isWordChar (isWordChar_of_isWord h c member)
  simp only [isMark, Bool.or_eq_false_iff, beq_eq_false_iff_ne, and_assoc] at mark
  exact mark

theorem isKey_of_isWord (h : isWord word = true) : isKey word = true := by
  cases word with
  | nil => cases h
  | cons c rest =>
    have other := not_mark_of_isWord h
    unfold isKey
    dsimp only
    rw [(other c List.mem_cons_self).2.1, Bool.not_false, Bool.true_and, List.all_eq_true]
    intro d member
    obtain ⟨-, layout, equals, -⟩ := other d (List.mem_cons_of_mem c member)
    rw [layout, beq_false_of_ne equals]
    rfl

end Words

namespace Element

/-- Names and keys are words, no key is there twice, and the text is trimmed. -/
structure Plain (element : Element) : Prop where
  name : isWord element.name.toList = true
  keys : ∀ pair ∈ element.attributes, isWord pair.1.toList = true
  distinct : (element.attributes.map Prod.fst).Nodup
  text : element.TightText

instance (element : Element) : Decidable element.Plain :=
  decidable_of_iff
    (isWord element.name.toList = true ∧
      (∀ pair ∈ element.attributes, isWord pair.1.toList = true) ∧
      (element.attributes.map Prod.fst).Nodup ∧ element.TightText)
    ⟨fun ⟨name, keys, distinct, text⟩ => ⟨name, keys, distinct, text⟩,
      fun ⟨name, keys, distinct, text⟩ => ⟨name, keys, distinct, text⟩⟩

variable {element : Element}

theorem Plain.readable (plain : element.Plain) : Readable element.name element.attributes where
  plain := fun c member => (not_mark_of_isWord plain.name c member).2.1
  head := by
    intro c first
    obtain ⟨-, -, -, slash, bang, question⟩ :=
      not_mark_of_isWord plain.name c (List.mem_of_head? first)
    exact ⟨bang, question, slash⟩
  keys := fun pair member => isKey_of_isWord (plain.keys pair member)
  distinct := plain.distinct

theorem Plain.delimited (plain : element.Plain) : element.Delimited := by
  refine delimited_of_names ?_ ?_ ?_
  · intro empty
    have named := plain.name
    rw [empty] at named
    cases named
  · intro c member
    obtain ⟨special, -, -, slash, -⟩ := not_mark_of_isWord plain.name c member
    exact ⟨special, slash⟩
  · intro pair listed c member
    exact (not_mark_of_isWord (plain.keys pair listed) c member).1

/-- Printing an element with plain names and reading it back gives the same
element, whatever layout is added between the tags and around the texts that
make up the printed form. -/
theorem parse_toMarkup (plain : element.Throughout Plain) :
    element.toMarkup = String.ofList element.pieces.flatten ∧
      parse element.toMarkup = .ok element ∧
      ∀ text, Spread element.pieces text → parse (String.ofList text) = .ok element := by
  have printable : element.Throughout Printable :=
    plain.mono fun _ plain => ⟨plain.readable, plain.delimited⟩
  have same : element.trimmed = element :=
    (trimmed_eq_self_iff element).mpr (plain.mono fun _ plain => plain.text)
  have spread : ∀ text, Spread element.pieces text → parse (String.ofList text) = .ok element := by
    intro text spread
    rw [parse_spread printable spread, same]
  have printed : element.toMarkup = String.ofList element.pieces.flatten := by
    rw [flatten_pieces]
    rfl
  refine ⟨printed, ?_, spread⟩
  rw [printed]
  exact spread _ (spread_flatten _)

theorem parse_toMarkup_nested :
    let element : Element :=
      ⟨"rule-1", [("name", " <\"&'> "), ("x_2", "")], some "1 < 2\n\t& ]]>",
        [⟨"if", [], none, []⟩, ⟨"A", [], some "\u00a0'", []⟩]⟩
    parse element.toMarkup = .ok element ∧
      parse (String.ofList (element.pieces.flatMap ("\n\t ".toList ++ ·) ++ "\n\t ".toList)) =
        .ok element := by
  intro element
  have plain : element.Throughout Plain := by decide +kernel
  obtain ⟨-, printed, spread⟩ := parse_toMarkup plain
  exact ⟨printed, spread _ (spread_flatMap (by decide +kernel) _)⟩

end Element

end RuleNet.Markup
