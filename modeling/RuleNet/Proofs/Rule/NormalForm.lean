import Mathlib.Data.List.Basic
import RuleNet.Proofs.Rule.CanonicalText

/-!
# Canonical texts are normal forms

What is dropped from a text is decided by the text as it was, and the character that
a space was judged by may itself be dropped. What remains needs no second pass: it is
`Normal`, and normal texts stay as they are.

* `canonicalize_eq_self_iff`: the texts that stay as they are.
* `normal_canonicalize`: nothing else comes out.
* `canonicalize_insert`, `canonicalize_insert_iff`: layout makes no difference in front
  of anything but a digit, and when it makes one there.
* `canonicalize_normalizes`: the results together.
-/

namespace RuleNet.Rule

open Text (isLayout)

variable {front gap back text : List Char}

/-! ## Normal texts -/

/-- A text without line feeds, tabs and carriage returns, in which a digit stands
behind every space. -/
structure Normal (text : List Char) : Prop where
  lines : ∀ c ∈ text, c ≠ '\n' ∧ c ≠ '\t' ∧ c ≠ '\r'
  spaces : ∀ before after, text = before ++ ' ' :: after →
    ∃ digit rest, after = digit :: rest ∧ digit.isDigit = true

theorem normal_nil : Normal [] where
  lines := fun _ member => nomatch member
  spaces := fun before after same => by simp at same

theorem isRedundant_eq_false_iff {c : Char} {rest : List Char} :
    isRedundant c rest = false ↔ (c ≠ '\n' ∧ c ≠ '\t' ∧ c ≠ '\r') ∧
      (c = ' ' → ∃ digit more, rest = digit :: more ∧ digit.isDigit = true) := by
  cases rest <;> simp [isRedundant, and_assoc]

/-- A text is normal when its first character is kept and the rest is normal. -/
theorem normal_cons_iff {c : Char} {rest : List Char} :
    Normal (c :: rest) ↔ isRedundant c rest = false ∧ Normal rest := by
  rw [isRedundant_eq_false_iff]
  constructor
  · intro normal
    refine ⟨⟨normal.lines c List.mem_cons_self, fun space => ?_⟩,
      fun d member => normal.lines d (List.mem_cons_of_mem _ member), fun before after same => ?_⟩
    · exact normal.spaces [] rest (by rw [space, List.nil_append])
    · exact normal.spaces (c :: before) after (by rw [same, List.cons_append])
  · rintro ⟨⟨line, space⟩, normal⟩
    refine ⟨fun d member => ?_, fun before after same => ?_⟩
    · rcases List.mem_cons.mp member with rfl | later
      · exact line
      · exact normal.lines d later
    · cases before with
      | nil =>
        cases same
        exact space rfl
      | cons first before =>
        cases same
        exact normal.spaces before after rfl

/-! ## What stays, and what comes out -/

/-- The texts that stay as they are. -/
theorem canonicalize_eq_self_iff : canonicalize text = text ↔ Normal text := by
  induction text with
  | nil => exact iff_of_true rfl normal_nil
  | cons c rest ih =>
    rw [normal_cons_iff, ← ih, canonicalize]
    cases isRedundant c rest with
    | false => simp
    | true =>
      -- What is shorter than the text is not the text.
      have shorter := (canonicalize_sublist rest).length_le
      have apart : canonicalize rest ≠ c :: rest := by
        intro same
        rw [same, List.length_cons] at shorter
        exact Nat.not_succ_le_self _ shorter
      simp [apart]

theorem not_isLayout_of_isDigit {c : Char} (digit : c.isDigit = true) : isLayout c = false := by
  cases layout : isLayout c with
  | false => rfl
  | true =>
    simp only [isLayout, Bool.or_eq_true, beq_iff_eq] at layout
    rcases layout with ((rfl | rfl) | rfl) | rfl <;> cases digit

/-- What comes out is normal. -/
theorem normal_canonicalize (text : List Char) : Normal (canonicalize text) := by
  induction text with
  | nil => exact normal_nil
  | cons c rest ih =>
    rw [canonicalize]
    split
    · exact ih
    · next kept =>
      rw [Bool.not_eq_true, isRedundant_eq_false_iff] at kept
      refine normal_cons_iff.mpr ⟨isRedundant_eq_false_iff.mpr ⟨kept.1, fun space => ?_⟩, ih⟩
      -- The digit that saved the space is kept too, right behind it.
      obtain ⟨digit, more, rfl, isDigit⟩ := kept.2 space
      rw [canonicalize_cons_of_not_isLayout (not_isLayout_of_isDigit isDigit)]
      exact ⟨digit, _, rfl, isDigit⟩

/-! ## Inserted layout -/

theorem noDigit_append (layout : ∀ c ∈ gap, isLayout c = true)
    (noDigit : back.head?.any Char.isDigit = false) :
    (gap ++ back).head?.any Char.isDigit = false := by
  cases gap with
  | nil => exact noDigit
  | cons c more =>
    cases digit : c.isDigit with
    | false => exact digit
    | true =>
      have solid := not_isLayout_of_isDigit digit
      rw [layout c List.mem_cons_self] at solid
      cases solid

/-- Layout in front of anything but a digit is dropped. -/
theorem canonicalize_gap (layout : ∀ c ∈ gap, isLayout c = true)
    (noDigit : back.head?.any Char.isDigit = false) :
    canonicalize (gap ++ back) = canonicalize back := by
  induction gap with
  | nil => rfl
  | cons c more ih =>
    have later : ∀ d ∈ more, isLayout d = true := fun d member =>
      layout d (List.mem_cons_of_mem _ member)
    have here := layout c List.mem_cons_self
    have redundant : isRedundant c (more ++ back) = true := by
      rw [isRedundant, noDigit_append later noDigit]
      simp only [isLayout, Bool.or_eq_true, beq_iff_eq] at here
      rcases here with ((rfl | rfl) | rfl) | rfl <;> rfl
    rw [List.cons_append, canonicalize, if_pos redundant, ih later]

/-- Layout may be inserted in front of anything but a digit, and at the end. -/
theorem canonicalize_insert (layout : ∀ c ∈ gap, isLayout c = true)
    (noDigit : back.head?.any Char.isDigit = false) :
    canonicalize (front ++ gap ++ back) = canonicalize (front ++ back) := by
  rw [List.append_assoc, canonicalize_append (noDigit_append layout noDigit),
    canonicalize_gap layout noDigit, canonicalize_append noDigit]

/-- In front of a digit one space remains if the text before it ends with a space. -/
theorem canonicalize_append_digit {digit : Char} (isDigit : digit.isDigit = true)
    (front back : List Char) :
    canonicalize (front ++ digit :: back) =
      canonicalize front ++ (if front.getLast? = some ' ' then [' '] else []) ++
        digit :: canonicalize back := by
  have kept := canonicalize_cons_of_not_isLayout (not_isLayout_of_isDigit isDigit) back
  induction front with
  | nil => simpa using kept
  | cons c rest ih =>
    cases rest with
    | nil =>
      -- Only the last character in front of the digit sees it.
      rw [List.cons_append, List.nil_append, canonicalize, kept]
      by_cases space : c = ' '
      · simp [canonicalize, isRedundant, space, isDigit]
      · simp only [canonicalize, isRedundant, beq_eq_false_iff_ne.mpr space, Bool.false_and]
        split <;> simp [space]
    | cons d more =>
      have same : isRedundant c (d :: more ++ digit :: back) = isRedundant c (d :: more) := rfl
      rw [List.cons_append, canonicalize, same, ih, canonicalize.eq_2 c (d :: more),
        List.getLast?_cons_cons]
      split <;> rfl

/-- Layout that is inserted in front of a digit makes no difference exactly if it ends
with a space when the text before it does, and only then. -/
theorem canonicalize_insert_iff {digit : Char} (isDigit : digit.isDigit = true)
    (layout : ∀ c ∈ gap, isLayout c = true) (content : gap ≠ []) :
    canonicalize (front ++ gap ++ digit :: back) = canonicalize (front ++ digit :: back) ↔
      (gap.getLast? = some ' ' ↔ front.getLast? = some ' ') := by
  have ending : canonicalize (front ++ gap) = canonicalize front := by
    have inserted := @canonicalize_insert front gap [] layout rfl
    rwa [List.append_nil, List.append_nil] at inserted
  rw [canonicalize_append_digit isDigit, canonicalize_append_digit isDigit, ending,
    List.getLast?_append_of_ne_nil _ content, List.append_left_inj, List.append_right_inj]
  by_cases space : gap.getLast? = some ' ' <;> by_cases before : front.getLast? = some ' ' <;>
    simp [space, before]

/-- Canonical texts are normal forms. Taking the canonical text twice is taking it
once. It is the text itself exactly for the texts without line feeds, tabs and carriage
returns in which a digit stands behind every space. And layout that is inserted at the
end, or in front of a character that is no digit, does not change it. -/
theorem canonicalize_normalizes (text : List Char) :
    canonicalize (canonicalize text) = canonicalize text ∧
    (canonicalize text = text ↔ Normal text) ∧
    ∀ front gap back, text = front ++ back → (∀ c ∈ gap, isLayout c = true) →
      (∀ c, back.head? = some c → c.isDigit = false) →
      canonicalize (front ++ gap ++ back) = canonicalize text := by
  refine ⟨canonicalize_eq_self_iff.mpr (normal_canonicalize text), canonicalize_eq_self_iff, ?_⟩
  rintro front gap back rfl layout other
  refine canonicalize_insert layout ?_
  rw [Option.any_eq_false]
  exact other

/-- A line feed between a space and a digit: the space is dropped for the line feed, which
is dropped itself, also if there is more layout between them or at the end. -/
theorem canonicalize_normalizes_break :
    let text := ['1', ' ', '\n', '5', ' ', '7']
    canonicalize text = ['1', '5', ' ', '7'] ∧
      canonicalize (canonicalize text) = ['1', '5', ' ', '7'] ∧
      canonicalize ['1', ' ', '\r', ' ', '\n', '5', ' ', '7'] = ['1', '5', ' ', '7'] ∧
      canonicalize ['1', ' ', '\n', '5', ' ', '7', '\t', ' '] = ['1', '5', ' ', '7'] := by
  intro text
  have once : canonicalize text = ['1', '5', ' ', '7'] := by decide
  obtain ⟨twice, -, inserted⟩ := canonicalize_normalizes text
  have inside := inserted ['1', ' '] ['\r', ' '] ['\n', '5', ' ', '7'] rfl
    (by simp [isLayout]) (by simp)
  have behind := inserted text ['\t', ' '] [] rfl (by simp [isLayout]) (by simp)
  exact ⟨once, twice.trans once, inside.trans once, behind.trans once⟩

end RuleNet.Rule
