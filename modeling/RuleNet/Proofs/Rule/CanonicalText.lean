import RuleNet.Rule.Key
import RuleNet.Text.Blank

/-!
# The canonical text of an element

Whether a space is dropped depends on the character behind it, so the canonical
text of two texts one after the other is not always that of the parts. It is
when the second part does not start with a digit, and every tag starts with
`<`. Three results follow.

* `canonicalize_render`: the canonical text of an element with a content is
  that of its start tag and text, the canonical texts of its children, and that
  of its end tag.
* `exists_canonicalize_render`: the canonical text of a child is a piece of that
  of its parent.
* `canonical_length_lt`: a child has a shorter canonical text than its parent.
-/

namespace RuleNet.Rule

open Markup (Element)
open Markup.Element (render renderAll renderHead renderEnd)
open Text (isLayout)

/-! ## Cutting a text -/

theorem isRedundant_append {c : Char} {front back : List Char}
    (noDigit : back.head?.any Char.isDigit = false) :
    isRedundant c (front ++ back) = isRedundant c front := by
  cases front with
  | nil => simp [isRedundant, noDigit]
  | cons next rest => rfl

/-- A text can be cut in front of anything but a digit. -/
theorem canonicalize_append {front back : List Char}
    (noDigit : back.head?.any Char.isDigit = false) :
    canonicalize (front ++ back) = canonicalize front ++ canonicalize back := by
  induction front with
  | nil => rfl
  | cons c rest ih =>
    rw [List.cons_append, canonicalize, canonicalize, isRedundant_append noDigit, ih]
    split <;> rfl

example : canonicalize ['1', ' ', '5'] ≠ canonicalize ['1', ' '] ++ canonicalize ['5'] := by decide

/-! ## What is kept -/

section Kept

variable {text word rest : List Char}

/-- Only layout is dropped. -/
theorem isLayout_of_isRedundant {c : Char} (redundant : isRedundant c rest = true) :
    isLayout c = true := by
  simp only [isRedundant, Bool.or_eq_true, Bool.and_eq_true, beq_iff_eq] at redundant
  rcases redundant with ((rfl | rfl) | rfl) | ⟨rfl, -⟩ <;> decide

theorem canonicalize_cons_of_not_isLayout {c : Char} (solid : isLayout c = false)
    (rest : List Char) : canonicalize (c :: rest) = c :: canonicalize rest := by
  refine canonicalize_cons_of_not_isRedundant ?_
  cases redundant : isRedundant c rest with
  | false => rfl
  | true => exact absurd (isLayout_of_isRedundant redundant) (by rw [solid]; decide)

/-- A text without layout is kept. -/
theorem canonicalize_solid_append (solid : ∀ c ∈ word, isLayout c = false) (rest : List Char) :
    canonicalize (word ++ rest) = word ++ canonicalize rest := by
  induction word with
  | nil => rfl
  | cons c word ih =>
    rw [List.cons_append, canonicalize_cons_of_not_isLayout (solid c List.mem_cons_self),
      ih fun d member => solid d (List.mem_cons_of_mem _ member), List.cons_append]

theorem canonicalize_solid (solid : ∀ c ∈ word, isLayout c = false) :
    canonicalize word = word := by
  have kept := canonicalize_solid_append solid []
  rwa [List.append_nil, canonicalize_nil, List.append_nil] at kept

/-- Some of what stands in front of a text is kept. -/
theorem exists_canonicalize_append (front rest : List Char) :
    ∃ kept, kept.Sublist front ∧ canonicalize (front ++ rest) = kept ++ canonicalize rest := by
  induction front with
  | nil => exact ⟨[], .slnil, rfl⟩
  | cons c front ih =>
    obtain ⟨kept, sub, same⟩ := ih
    rw [List.cons_append, canonicalize, same]
    split
    · exact ⟨kept, sub.cons c, rfl⟩
    · exact ⟨c :: kept, sub.cons_cons c, rfl⟩

theorem canonicalize_sublist (text : List Char) : (canonicalize text).Sublist text := by
  obtain ⟨kept, sub, same⟩ := exists_canonicalize_append text []
  rw [List.append_nil, canonicalize_nil, List.append_nil] at same
  exact same ▸ sub

theorem getLast?_canonicalize {c : Char} (last : text.getLast? = some c)
    (solid : isLayout c = false) : (canonicalize text).getLast? = some c := by
  rcases List.eq_nil_or_concat text with rfl | ⟨front, d, rfl⟩
  · cases last
  · rw [List.concat_eq_append] at last ⊢
    cases List.getLast?_concat.symm.trans last
    obtain ⟨kept, -, same⟩ := exists_canonicalize_append front [c]
    rw [same, canonicalize_cons_of_not_isLayout solid, canonicalize_nil, List.getLast?_concat]

/-- What is left of spaces in front of a text. -/
def separator (text : List Char) : List Char :=
  if text.head?.any Char.isDigit then [' '] else []

theorem canonicalize_space (rest : List Char) :
    canonicalize (' ' :: rest) = separator rest ++ canonicalize rest := by
  rw [canonicalize, separator]
  cases digit : rest.head?.any Char.isDigit <;> simp [isRedundant, digit]

end Kept

/-! ## Printed elements -/

theorem render_head? (element : Element) : element.render.head? = some '<' := by
  obtain ⟨name, attributes, text, children⟩ := element
  rw [render]
  split <;> simp [renderHead]

theorem renderAll_noDigit (children : List Element) :
    (renderAll children).head?.any Char.isDigit = false := by
  cases children with
  | nil => rfl
  | cons child rest =>
    rw [renderAll, List.head?_append, render_head?, Option.some_or]
    rfl

theorem renderEnd_noDigit (name : String) : (renderEnd name).head?.any Char.isDigit = false := by
  have start : (renderEnd name).head? = some '<' := by simp [renderEnd]
  rw [start]
  decide

/-- Siblings keep their canonical texts. -/
theorem canonicalize_renderAll (children : List Element) :
    canonicalize (renderAll children) =
      children.flatMap fun child => canonicalize child.render := by
  induction children with
  | nil => rfl
  | cons child rest ih =>
    rw [renderAll, canonicalize_append (renderAll_noDigit rest), ih, List.flatMap_cons]

/-- The canonical text of an element with a text or children is put together from its
start tag and text, its children and its end tag. -/
theorem canonicalize_render {name : String} {attributes : List (String × String)}
    {text : Option String} {children : List Element}
    (content : (text.isNone && children.isEmpty) = false) :
    canonicalize (render ⟨name, attributes, text, children⟩) =
      canonicalize (renderHead name attributes ++ '>' :: Markup.escape (text.getD "").toList) ++
        (children.flatMap fun child => canonicalize child.render) ++
        canonicalize (renderEnd name) := by
  rw [render, content, if_neg Bool.false_ne_true, canonicalize_append (renderEnd_noDigit name),
    canonicalize_append (renderAll_noDigit children), canonicalize_renderAll]

theorem canonicalize_renderEnd_ne_nil (name : String) : canonicalize (renderEnd name) ≠ [] := by
  have start : isRedundant '<' ('/' :: (name.toList ++ ['>'])) = false := rfl
  have opened : renderEnd name = '<' :: '/' :: (name.toList ++ ['>']) := by simp [renderEnd]
  rw [opened, canonicalize_cons_of_not_isRedundant start]
  exact List.cons_ne_nil _ _

/-- The canonical text of a child is a piece of that of its parent, and not the end of it. -/
theorem exists_canonicalize_render {element child : Element} (member : child ∈ element.children) :
    ∃ before after, canonicalize element.render = before ++ canonicalize child.render ++ after ∧
      after ≠ [] := by
  obtain ⟨name, attributes, text, children⟩ := element
  have content : (text.isNone && children.isEmpty) = false := by
    rw [List.isEmpty_eq_false_iff.mpr (List.ne_nil_of_mem member), Bool.and_false]
  have regroup : ∀ start earlier own later closing : List Char,
      start ++ (earlier ++ (own ++ later)) ++ closing =
        start ++ earlier ++ own ++ (later ++ closing) := by simp
  rw [canonicalize_render content]
  obtain ⟨earlier, later, rfl⟩ : ∃ earlier later, children = earlier ++ child :: later :=
    List.append_of_mem member
  rw [List.flatMap_append, List.flatMap_cons]
  exact ⟨_, _, regroup _ _ _ _ _,
    List.append_ne_nil_of_right_ne_nil _ (canonicalize_renderEnd_ne_nil name)⟩

/-- The canonical text of a child is shorter than that of its parent. -/
theorem canonical_length_lt {element child : Element} (member : child ∈ element.children) :
    (Key.ofElement child).canonical.length < (Key.ofElement element).canonical.length := by
  obtain ⟨before, after, same, more⟩ := exists_canonicalize_render member
  have behind : 0 < after.length := List.length_pos_iff.mpr more
  rw [Key.ofElement, Key.ofElement, Key.canonical_ofCanonical, Key.canonical_ofCanonical,
    String.length_ofList, String.length_ofList, same, List.length_append, List.length_append]
  omega

end RuleNet.Rule
