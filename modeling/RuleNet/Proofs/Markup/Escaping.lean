import Mathlib.Data.List.Basic
import RuleNet.Markup.Entity
import RuleNet.Proofs.Text.Trimming

/-!
# Escaped texts

The reader looks at an escaped text before it is unescaped: for the next `<`,
for a closing quote, and for layout at its ends. Escaping does not get in the
way: no special character but `&` is left (`not_mem_escape`), and layout stays
where it is and nowhere else (`escape_of_blank`, `tight_escape`).
-/

namespace RuleNet.Markup

open Text (isLayout Tight)

variable {c d : Char} {text : List Char}

/-- The characters that are written as entities. -/
def isSpecial (c : Char) : Bool :=
  c == '<' || c == '>' || c == '&' || c == '\'' || c == '"'

theorem escapeChar_of_not_isSpecial (h : isSpecial c = false) : escapeChar c = [c] := by
  unfold escapeChar
  split <;> first | rfl | exact absurd h (by decide)

theorem escapeChar_ne_nil (c : Char) : escapeChar c ≠ [] := by
  unfold escapeChar
  split <;> exact List.cons_ne_nil _ _

/-- A character is written as itself or as an entity; what holds of the
characters of all entities can be checked. -/
theorem of_mem_escapeChar {p : Char → Bool} (member : d ∈ escapeChar c)
    (entities : ['<', '>', '&', '\'', '"'].all (fun c => (escapeChar c).all p) = true) :
    isSpecial c = false ∧ d = c ∨ p d = true := by
  cases special : isSpecial c with
  | false =>
    rw [escapeChar_of_not_isSpecial special, List.mem_singleton] at member
    exact .inl ⟨rfl, member⟩
  | true =>
    have listed : c ∈ ['<', '>', '&', '\'', '"'] := by
      simp only [isSpecial, Bool.or_eq_true, beq_iff_eq] at special
      simp [← or_assoc, special]
    exact .inr (List.all_eq_true.mp (List.all_eq_true.mp entities c listed) d member)

/-- Of the special characters only `&` occurs in an escaped text. -/
theorem not_mem_escape (special : isSpecial c = true) (other : c ≠ '&') (text : List Char) :
    c ∉ escape text := by
  intro member
  obtain ⟨d, -, written⟩ := List.mem_flatMap.mp member
  rcases of_mem_escapeChar (p := fun c => !isSpecial c || c == '&') written (by decide) with
    ⟨plain, rfl⟩ | allowed
  · rw [plain] at special
    cases special
  · rw [special] at allowed
    exact other (eq_of_beq allowed)

theorem isLayout_of_mem_escapeChar (layout : isLayout c = false) (member : d ∈ escapeChar c) :
    isLayout d = false := by
  rcases of_mem_escapeChar (p := fun d => !isLayout d) member (by decide) with ⟨-, rfl⟩ | other
  · exact layout
  · exact Bool.not_eq_true' _ ▸ other

theorem escape_append (text text' : List Char) :
    escape (text ++ text') = escape text ++ escape text' :=
  List.flatMap_append

/-- A text without special characters is written as it is. -/
theorem escape_of_plain (plain : ∀ c ∈ text, isSpecial c = false) : escape text = text := by
  induction text with
  | nil => rfl
  | cons c rest ih =>
    rw [escape, List.flatMap_cons, escapeChar_of_not_isSpecial (plain c List.mem_cons_self),
      ← escape, ih fun c member => plain c (List.mem_cons_of_mem _ member)]
    rfl

theorem isSpecial_of_isBlank (blank : Text.isBlank c = true) : isSpecial c = false := by
  cases special : isSpecial c with
  | false => rfl
  | true =>
    simp only [isSpecial, Bool.or_eq_true, beq_iff_eq] at special
    rcases special with (((rfl | rfl) | rfl) | rfl) | rfl <;> cases blank

/-- Layout is written as it is. -/
theorem escape_of_blank (blank : ∀ c ∈ text, isLayout c = true) : escape text = text :=
  escape_of_plain fun c member => isSpecial_of_isBlank (Text.isBlank_of_isLayout (blank c member))

/-- An escaped text has layout at an end only if the text has. -/
theorem tight_escape (tight : Tight isLayout text) : Tight isLayout (escape text) where
  head := by
    intro d first
    cases text with
    | nil => cases first
    | cons c rest =>
      rw [escape, List.flatMap_cons, List.head?_append_of_ne_nil _ (escapeChar_ne_nil c)] at first
      exact isLayout_of_mem_escapeChar (tight.head c rfl) (List.mem_of_head? first)
  last := by
    intro d final
    rcases List.eq_nil_or_concat text with rfl | ⟨before, c, rfl⟩
    · cases final
    · have single : escape [c] = escapeChar c := List.append_nil _
      rw [List.concat_eq_append] at tight final
      rw [escape_append, single, List.getLast?_append_of_ne_nil _ (escapeChar_ne_nil c)] at final
      exact isLayout_of_mem_escapeChar (tight.last c List.getLast?_concat)
        (List.mem_of_getLast? final)

end RuleNet.Markup
