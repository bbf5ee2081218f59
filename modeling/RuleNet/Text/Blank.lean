/-!
# Blank characters and trimming

Two notions of blank are in use. *Layout* is the white space of the markup and
of JSON: space, tab, carriage return and line feed. *Blank* is any character
with the Unicode property `White_Space`. Layout characters are blank
(`isBlank_of_isLayout`).

Trimming is the same for both notions: the longest run of such characters is
dropped at either end.
-/

namespace RuleNet.Text

/-! ## Character classes -/

/-- Space, tab, carriage return or line feed. -/
def isLayout (c : Char) : Bool :=
  c == ' ' || c == '\t' || c == '\r' || c == '\n'

/-- The code points with the Unicode property `White_Space`, as closed ranges. -/
def blankRanges : List (Nat × Nat) :=
  [(0x9, 0xD), (0x20, 0x20), (0x85, 0x85), (0xA0, 0xA0), (0x1680, 0x1680),
    (0x2000, 0x200A), (0x2028, 0x2029), (0x202F, 0x202F), (0x205F, 0x205F), (0x3000, 0x3000)]

/-- The character has the Unicode property `White_Space`. -/
def isBlank (c : Char) : Bool :=
  blankRanges.any fun range => range.1 ≤ c.toNat && c.toNat ≤ range.2

theorem isBlank_of_isLayout {c : Char} (h : isLayout c = true) : isBlank c = true := by
  simp only [isLayout, Bool.or_eq_true, beq_iff_eq] at h
  rcases h with ((rfl | rfl) | rfl) | rfl <;> decide

/-! ## Trimming -/

/-- The text without the blank run at its end. -/
def trimEnd (blank : Char → Bool) (text : List Char) : List Char :=
  (text.reverse.dropWhile blank).reverse

/-- The text without the blank runs at its two ends. -/
def trim (blank : Char → Bool) (text : List Char) : List Char :=
  trimEnd blank (text.dropWhile blank)

@[simp] theorem trimEnd_nil (blank : Char → Bool) : trimEnd blank [] = [] := rfl

@[simp] theorem trim_nil (blank : Char → Bool) : trim blank [] = [] := rfl

/-- A last character that is not blank protects everything before it. -/
theorem trimEnd_append_singleton {blank : Char → Bool} {c : Char} (h : blank c = false)
    (text : List Char) : trimEnd blank (text ++ [c]) = text ++ [c] := by
  simp [trimEnd, h]

end RuleNet.Text
