import RuleNet.Proofs.Rule.CanonicalTags

/-!
# Keys are made of keys

A text cannot be cut everywhere: `1 5` has another canonical text than `1 ` and `5`
together. A printed element can be cut in front of each child and of its end tag, with
any names and texts, because `<` stands there. So its canonical text is put together
from its own tags and text and the canonical texts of its children, and what stands
below it at any depth is found in it as one piece.

* `canonical_of_bare`, `canonical_of_full`: the canonical text of an element, by its parts.
* `canonical_isInfix_of_below`, `canonical_length_lt_of_below`: the canonical text of what
  stands below an element is a piece of that of the element, and shorter.
* `canonical_composes`: the results together.
-/

namespace RuleNet.Markup.Element

/-- The element is a child of the other one, or stands below a child of it. -/
inductive Below (inner : Element) : Element → Prop
  | child {outer : Element} : inner ∈ outer.children → Below inner outer
  | deeper {middle outer : Element} : Below inner middle → middle ∈ outer.children →
      Below inner outer

end RuleNet.Markup.Element

namespace RuleNet.Rule

open Markup (Element escape)
open Markup.Element (renderHead renderEnd Below)

variable {element inner outer : Element}

theorem toList_canonical (element : Element) :
    (Key.ofElement element).canonical.toList = canonicalize element.render :=
  String.toList_ofList

/-! ## The parts of an element -/

/-- An element without text and children has the canonical text of its only tag. -/
theorem canonical_of_bare (bare : element.isBare = true) :
    (Key.ofElement element).canonical.toList =
      canonicalize (renderHead element.name element.attributes ++ "/>".toList) := by
  obtain ⟨name, attributes, text, children⟩ := element
  have nothing : (text.isNone && children.isEmpty) = true := bare
  rw [toList_canonical, Markup.Element.render, if_pos nothing]

/-- Any other element has the canonical text of its start tag and text, then those of its
children, then that of its end tag. -/
theorem canonical_of_full (full : element.isBare = false) :
    (Key.ofElement element).canonical.toList =
      canonicalize (renderHead element.name element.attributes ++
          '>' :: escape (element.text.getD "").toList) ++
        (element.children.flatMap fun child => (Key.ofElement child).canonical.toList) ++
        canonicalize (renderEnd element.name) := by
  obtain ⟨name, attributes, text, children⟩ := element
  have content : (text.isNone && children.isEmpty) = false := full
  simp only [toList_canonical]
  exact canonicalize_render content

/-! ## What stands below an element -/

theorem canonical_isInfix_of_mem (member : inner ∈ outer.children) :
    (Key.ofElement inner).canonical.toList <:+: (Key.ofElement outer).canonical.toList := by
  obtain ⟨before, after, same, -⟩ := exists_canonicalize_render member
  rw [toList_canonical, toList_canonical]
  exact ⟨before, after, same.symm⟩

/-- What stands below an element has its canonical text inside that of the element. -/
theorem canonical_isInfix_of_below (below : inner.Below outer) :
    (Key.ofElement inner).canonical.toList <:+: (Key.ofElement outer).canonical.toList := by
  induction below with
  | child member => exact canonical_isInfix_of_mem member
  | deeper _ member ih => exact ih.trans (canonical_isInfix_of_mem member)

/-- What stands below an element has a shorter canonical text. -/
theorem canonical_length_lt_of_below (below : inner.Below outer) :
    (Key.ofElement inner).canonical.length < (Key.ofElement outer).canonical.length := by
  induction below with
  | child member => exact canonical_length_lt member
  | deeper _ member ih => exact Nat.lt_trans ih (canonical_length_lt member)

/-- Keys are made of keys. The canonical text of an element is that of its start tag and
text, followed by the canonical texts of its children's keys and by that of its end tag;
if it has neither text nor children, it is that of its only tag. And what stands below it
at any depth has a shorter canonical text, which is one piece of its own. -/
theorem canonical_composes (element : Element) :
    ((Key.ofElement element).canonical.toList =
      if element.text = none ∧ element.children = [] then
        canonicalize (renderHead element.name element.attributes ++ "/>".toList)
      else
        canonicalize (renderHead element.name element.attributes ++
            '>' :: escape (element.text.getD "").toList) ++
          (element.children.flatMap fun child => (Key.ofElement child).canonical.toList) ++
          canonicalize (renderEnd element.name)) ∧
    ∀ inner : Element, inner.Below element →
      (Key.ofElement inner).canonical.toList <:+: (Key.ofElement element).canonical.toList ∧
        (Key.ofElement inner).canonical.length < (Key.ofElement element).canonical.length := by
  constructor
  · have bare_iff : element.isBare = true ↔ element.text = none ∧ element.children = [] := by
      rw [Markup.Element.isBare, Bool.and_eq_true, Option.isNone_iff_eq_none, List.isEmpty_iff]
    split
    · next nothing => exact canonical_of_bare (bare_iff.mpr nothing)
    · next content =>
      exact canonical_of_full ((Bool.not_eq_true _).mp (mt bare_iff.mp content))
  · intro inner below
    exact ⟨canonical_isInfix_of_below below, canonical_length_lt_of_below below⟩

/-- Names with spaces, and texts that end in one or consist of one. -/
theorem canonical_composes_spaced :
    let inner : Element := ⟨"5 b", [], some "7 ", []⟩
    let middle : Element := ⟨"c ", [("2", " ")], none, [⟨"e", [], none, []⟩, inner]⟩
    let outer : Element := ⟨"a 1", [("2", "x ")], some "1 2 ", [middle, ⟨"0", [], some " ", []⟩]⟩
    inner.Below outer ∧
      (Key.ofElement inner).canonical = "<5b>7</5b>" ∧
      (Key.ofElement middle).canonical = "<c 2=\"\"><e/><5b>7</5b></c>" ∧
      (Key.ofElement outer).canonical.toList = "<a 1 2=\"x\">1 2".toList ++
        ((Key.ofElement middle).canonical.toList ++ "<0></0>".toList) ++ "</a 1>".toList ∧
      (Key.ofElement inner).canonical.toList <:+: (Key.ofElement outer).canonical.toList ∧
      (Key.ofElement inner).canonical.length < (Key.ofElement outer).canonical.length := by
  intro inner middle outer
  have below : inner.Below outer :=
    .deeper (.child (by simp [middle])) (show middle ∈ outer.children by simp [outer])
  obtain ⟨composed, inside⟩ := canonical_composes outer
  rw [if_neg (by simp [outer])] at composed
  obtain ⟨piece, shorter⟩ := inside inner below
  exact ⟨below, by decide +kernel, by decide +kernel, composed.trans (by decide +kernel),
    piece, shorter⟩

end RuleNet.Rule
