import Mathlib.Data.List.Forall2
import RuleNet.Proofs.Markup.RoundTrip
import RuleNet.Proofs.Rule.CanonicalText

/-!
# Reading canonical texts back

The canonical text of an element is a row of tags and texts, and its tags end
where the printed ones do. So it tells how the elements are nested, what stands
in each tag, and the name of each element that has an end tag; it does not tell
where in a tag the name ends.

* `agree_of_canonicalize_eq`: elements with the same canonical text have the same tags in the
  same places.
* `attributes_of_canonicalize_eq`: lists of attributes with the same canonical text have the
  same keys, and the same values but for layout.
-/

namespace RuleNet.Rule

open Markup (Element escape inside isEnclosed isKey nextQuote splitTag? Readable)
open Markup.Element (render renderAll renderAttributes renderEnd Throughout)
open Text (isLayout)

/-! ## Trees of one shape -/

/-- Two trees have the same number of branches everywhere, and what stands in the
same place is related. -/
inductive Agree {α : Type} (below : α → List α) (own : α → α → Prop) : α → α → Prop
  | node {a b : α} :
      own a b → List.Forall₂ (Agree below own) (below a) (below b) → Agree below own a b

/-! ## Attributes -/

/-- A text is cut in one way at the first place where a character stands. -/
theorem eq_of_cut {c : Char} {front back front' back' : List Char} (first : c ∉ front)
    (first' : c ∉ front') (same : front ++ c :: back = front' ++ c :: back') :
    front = front' ∧ back = back' := by
  rcases List.append_eq_append_iff.mp same with ⟨overlap, rfl, behind⟩ | ⟨overlap, rfl, behind⟩
  · cases overlap with
    | nil => exact ⟨(List.append_nil _).symm, (List.cons.inj behind).2⟩
    | cons d overlap =>
      rw [(List.cons.inj behind).1] at first'
      exact absurd (List.mem_append_right _ List.mem_cons_self) first'
  · cases overlap with
    | nil => exact ⟨List.append_nil _, (List.cons.inj behind).2.symm⟩
    | cons d overlap =>
      rw [(List.cons.inj behind).1] at first
      exact absurd (List.mem_append_right _ List.mem_cons_self) first

theorem not_mem_canonicalize_escape {c : Char} (special : Markup.isSpecial c = true)
    (other : c ≠ '&') (text : List Char) : c ∉ canonicalize (escape text) := fun member =>
  Markup.not_mem_escape special other text ((canonicalize_sublist _).subset member)

section Attributes

variable {key key' : List Char} {attributes attributes' : List (String × String)}

theorem solid_of_isKey (shape : isKey key = true) : ∀ c ∈ key, isLayout c = false := by
  cases key with
  | nil => cases shape
  | cons c rest =>
    rw [isKey, Bool.and_eq_true, Bool.not_eq_true', List.all_eq_true] at shape
    intro d member
    rcases List.mem_cons.mp member with rfl | member
    · exact shape.1
    · have other := shape.2 d member
      rw [Bool.not_eq_true', Bool.or_eq_false_iff] at other
      exact other.2

/-- The canonical text of attributes. -/
theorem canonicalize_renderAttributes {key value : String} (shape : isKey key.toList = true)
    (rest : List (String × String)) :
    canonicalize (renderAttributes ((key, value) :: rest)) =
      separator key.toList ++ (key.toList ++ '=' :: '"' ::
        (canonicalize (escape value.toList) ++ '"' :: canonicalize (renderAttributes rest))) := by
  have written : renderAttributes ((key, value) :: rest) =
      ' ' :: (key.toList ++ ('=' :: '"' :: (escape value.toList ++
        '"' :: renderAttributes rest))) := by
    simp [renderAttributes]
  have start : separator (key.toList ++ ('=' :: '"' :: (escape value.toList ++
      '"' :: renderAttributes rest))) = separator key.toList := by
    rw [separator, List.head?_append_of_ne_nil, ← separator]
    intro empty
    rw [empty] at shape
    cases shape
  rw [written, canonicalize_space, start, canonicalize_solid_append (solid_of_isKey shape),
    canonicalize_cons_of_not_isLayout (by rfl), canonicalize_cons_of_not_isLayout (by rfl),
    canonicalize_append (by rfl), canonicalize_cons_of_not_isLayout (by rfl)]

/-- The space in front of a key is layout, if there is one. -/
theorem dropWhile_separator_append (shape : isKey key = true) (rest : List Char) :
    (separator key ++ (key ++ rest)).dropWhile isLayout = key ++ rest := by
  have layout : ∀ c ∈ separator key, isLayout c = true := by
    intro c member
    unfold separator at member
    split at member
    · rw [List.mem_singleton.mp member]
      rfl
    · exact absurd member List.not_mem_nil
  rw [List.dropWhile_append_of_pos layout, (Markup.dropWhile_of_isKey shape _).1]

/-- A key and what follows it are told from their canonical text. -/
theorem eq_of_separator_append {rest rest' : List Char} (shape : isKey key = true)
    (shape' : isKey key' = true)
    (same : separator key ++ (key ++ '=' :: rest) = separator key' ++ (key' ++ '=' :: rest')) :
    key = key' ∧ rest = rest' := by
  have cut := congrArg (fun text => Markup.splitKey (text.dropWhile isLayout)) same
  rw [dropWhile_separator_append shape, dropWhile_separator_append shape',
    Markup.splitKey_of_isKey shape, Markup.splitKey_of_isKey shape', Prod.mk.injEq] at cut
  exact ⟨cut.1, (List.cons.inj cut.2).2⟩

/-- Both attributes have one key, and values that are the same but for layout. -/
def SameAttribute (pair pair' : String × String) : Prop :=
  pair.1 = pair'.1 ∧ canonicalize (escape pair.2.toList) = canonicalize (escape pair'.2.toList)

theorem canonicalize_renderAttributes_ne_nil {pair : String × String}
    (shape : isKey pair.1.toList = true) (rest : List (String × String)) :
    canonicalize (renderAttributes (pair :: rest)) ≠ [] := by
  rw [canonicalize_renderAttributes shape]
  exact List.append_ne_nil_of_right_ne_nil _
    (List.append_ne_nil_of_right_ne_nil _ (List.cons_ne_nil _ _))

/-- Attributes are told from their canonical text. -/
theorem attributes_of_canonicalize_eq
    (keys : ∀ pair ∈ attributes, isKey pair.1.toList = true)
    (keys' : ∀ pair ∈ attributes', isKey pair.1.toList = true)
    (same : canonicalize (renderAttributes attributes) =
      canonicalize (renderAttributes attributes')) :
    List.Forall₂ SameAttribute attributes attributes' := by
  induction attributes generalizing attributes' with
  | nil =>
    cases attributes' with
    | nil => exact .nil
    | cons pair' rest' =>
      have shape := keys' pair' List.mem_cons_self
      exact absurd same.symm (canonicalize_renderAttributes_ne_nil shape rest')
  | cons pair rest ih =>
    cases attributes' with
    | nil =>
      have shape := keys pair List.mem_cons_self
      exact absurd same (canonicalize_renderAttributes_ne_nil shape rest)
    | cons pair' rest' =>
      have shape := keys pair List.mem_cons_self
      have shape' := keys' pair' List.mem_cons_self
      rw [canonicalize_renderAttributes shape, canonicalize_renderAttributes shape'] at same
      obtain ⟨named, same⟩ := eq_of_separator_append shape shape' same
      have quote : ∀ value : String, '"' ∉ canonicalize (escape value.toList) := fun value =>
        not_mem_canonicalize_escape rfl (by decide) _
      obtain ⟨value, others⟩ := eq_of_cut (quote _) (quote _) (List.cons.inj same).2
      exact .cons ⟨String.toList_inj.mp named, value⟩
        (ih (fun pair later => keys pair (List.mem_cons_of_mem _ later))
          (fun pair later => keys' pair (List.mem_cons_of_mem _ later)) others)

end Attributes

/-! ## Tags -/

theorem nextQuote_of_isLayout {quote : Option Char}
    (solid : ∀ c, quote = some c → isLayout c = false) {c : Char} (layout : isLayout c = true) :
    nextQuote quote c = quote := by
  have other : ∀ {d : Char}, isLayout d = false → (c == d) = false := by
    intro d no
    refine beq_false_of_ne ?_
    rintro rfl
    rw [layout] at no
    cases no
  cases quote with
  | none => rw [nextQuote, other (d := '"') (by rfl), other (d := '\'') (by rfl)]; rfl
  | some d => rw [nextQuote, other (solid d rfl)]; rfl

theorem isLayout_of_nextQuote {quote : Option Char}
    (solid : ∀ c, quote = some c → isLayout c = false) (c : Char) :
    ∀ d, nextQuote quote c = some d → isLayout d = false := by
  intro d next
  cases quote with
  | none =>
    rw [nextQuote, Option.ite_none_right_eq_some, Bool.or_eq_true, beq_iff_eq, beq_iff_eq] at next
    obtain ⟨rfl | rfl, same⟩ := next <;> cases same <;> rfl
  | some q =>
    rw [nextQuote, Option.ite_none_left_eq_some] at next
    exact solid d next.2

/-- Dropping layout changes no quotes and drops no `>`. -/
theorem isEnclosed_canonicalize {quote : Option Char}
    (solid : ∀ c, quote = some c → isLayout c = false) (text : List Char) :
    isEnclosed quote (canonicalize text) = isEnclosed quote text := by
  induction text generalizing quote with
  | nil => rfl
  | cons c rest ih =>
    rw [canonicalize]
    split
    · next redundant =>
      have layout := isLayout_of_isRedundant redundant
      have closing : (c == '>') = false := by
        refine beq_false_of_ne ?_
        rintro rfl
        cases layout
      rw [isEnclosed, closing, nextQuote_of_isLayout solid layout, ih solid]
      rfl
    · rw [isEnclosed, isEnclosed, ih (isLayout_of_nextQuote solid c)]

/-- The canonical text of the inside of the tag. -/
def tagText (element : Element) : List Char :=
  canonicalize (inside element.name element.attributes)

/-- The element has tags that end where they are meant to, and a name. -/
structure Clear (element : Element) : Prop where
  readable : Readable element.name element.attributes
  delimited : element.Delimited
  named : element.name ≠ ""

section Tags

variable {element element' : Element}

theorem tagText_eq (clear : Clear element) :
    tagText element = element.name.toList ++ canonicalize (renderAttributes element.attributes) :=
  canonicalize_solid_append clear.readable.plain _

/-- What the canonical text has between the tag and the end of the element. -/
def contentText (element : Element) : List Char :=
  if element.isBare then []
  else
    canonicalize (escape (element.text.getD "").toList) ++
      canonicalize (renderAll element.children) ++ canonicalize (renderEnd element.name)

/-- The inside of the tag with the slash that closes it. -/
def markText (element : Element) : List Char :=
  tagText element ++ if element.isBare then ['/'] else []

theorem canonicalize_render_eq (element : Element) :
    canonicalize element.render = '<' :: (markText element ++ '>' :: contentText element) := by
  obtain ⟨name, attributes, text, children⟩ := element
  have head : ∀ rest, Markup.Element.renderHead name attributes ++ rest =
      '<' :: (inside name attributes ++ rest) := fun _ => rfl
  rw [render, markText, contentText, tagText, Markup.Element.isBare]
  split
  · rw [head, canonicalize_cons_of_not_isLayout (by rfl), canonicalize_append (by rfl),
      List.append_assoc]
    rfl
  · rw [canonicalize_append (renderEnd_noDigit name),
      canonicalize_append (renderAll_noDigit children), head,
      canonicalize_cons_of_not_isLayout (by rfl), canonicalize_append (by rfl),
      canonicalize_cons_of_not_isLayout (by rfl)]
    simp only [List.append_nil, List.append_assoc, List.cons_append]

/-- The end of a tag is found in the canonical text. -/
theorem splitTag?_markText (clear : Clear element) (rest : List Char) :
    splitTag? none (markText element ++ '>' :: rest) = some (markText element, rest) := by
  refine Markup.splitTag?_of_isEnclosed ?_ rest
  have enclosed : isEnclosed none (tagText element) = true := by
    have unquoted : ∀ c, none = some c → isLayout c = false := fun _ same => nomatch same
    rw [tagText, isEnclosed_canonicalize unquoted]
    exact clear.delimited.inside
  rw [markText, Markup.isEnclosed_append enclosed]
  split <;> rfl

/-- A tag that is not closed in itself does not look closed. -/
theorem getLast?_tagText (clear : Clear element) (full : element.isBare = false) :
    (tagText element).getLast? ≠ some '/' := by
  cases last : (inside element.name element.attributes).getLast? with
  | none =>
    rw [List.getLast?_eq_none_iff] at last
    rw [tagText, last]
    exact fun same => nomatch same
  | some c =>
    have solid : isLayout c = false := by
      rw [inside, List.getLast?_append, Option.or_eq_some_iff] at last
      rcases last with quote | ⟨-, letter⟩
      · rw [Markup.getLast?_renderAttributes quote]
        rfl
      · exact clear.readable.plain c (List.mem_of_getLast? letter)
    rw [tagText, getLast?_canonicalize last solid, ← last]
    exact clear.delimited.start full

/-- Both tags are the same as far as canonical texts tell; the end tag tells the name. -/
structure SameTag (element element' : Element) : Prop where
  bare : element.isBare = element'.isBare
  inside : tagText element = tagText element'
  named : element.isBare = false → element.name = element'.name

/-- A tag does not look like an end tag. -/
theorem markText_append_ne (clear : Clear element) (rest more : List Char) :
    markText element ++ rest ≠ '/' :: more := by
  intro same
  rw [markText, tagText_eq clear, List.append_assoc, List.append_assoc] at same
  cases letters : element.name.toList with
  | nil => exact clear.named (String.toList_eq_nil_iff.mp letters)
  | cons c others =>
    rw [letters] at same
    exact (clear.readable.head c (by rw [letters]; rfl)).2.2 (List.cons.inj same).1

/-- A tag is told from what follows it. -/
theorem markText_of_canonicalize_eq (clear : Clear element) (clear' : Clear element')
    {rest rest' : List Char}
    (same : canonicalize element.render ++ rest = canonicalize element'.render ++ rest') :
    markText element = markText element' ∧
      contentText element ++ rest = contentText element' ++ rest' := by
  rw [canonicalize_render_eq, canonicalize_render_eq, List.cons_append, List.cons_append,
    List.append_assoc, List.append_assoc, List.cons_append, List.cons_append] at same
  have cut := congrArg (splitTag? none) (List.cons.inj same).2
  rw [splitTag?_markText clear, splitTag?_markText clear', Option.some.injEq, Prod.mk.injEq] at cut
  exact cut

/-- A tag that is closed in itself is told from one that is not. -/
theorem tagText_of_markText_eq (clear : Clear element) (clear' : Clear element')
    (same : markText element = markText element') :
    element.isBare = element'.isBare ∧ tagText element = tagText element' := by
  have apart : ∀ {full bare : Element}, Clear full → full.isBare = false →
      tagText full ≠ tagText bare ++ ['/'] := by
    intro full bare clear noBare closed
    refine getLast?_tagText clear noBare ?_
    rw [closed, List.getLast?_concat]
  unfold markText at same
  cases bare : element.isBare <;> cases bare' : element'.isBare <;> rw [bare, bare'] at same
  · exact ⟨rfl, by simpa using same⟩
  · exact absurd (by simpa using same) (apart clear bare)
  · exact absurd (by simpa using same.symm) (apart clear' bare')
  · exact ⟨rfl, by simpa using same⟩

/-- The canonical text of an end tag. -/
theorem canonicalize_renderEnd (clear : Clear element) :
    canonicalize (renderEnd element.name) = '<' :: '/' :: (element.name.toList ++ ['>']) := by
  rw [canonicalize_solid]
  · rfl
  · intro c member
    rcases List.mem_append.mp member with member | member
    · rcases List.mem_append.mp member with member | member
      · have layout : ("</".toList.all fun c => !isLayout c) = true := rfl
        exact (Bool.not_eq_true' _).mp (List.all_eq_true.mp layout c member)
      · exact clear.readable.plain c member
    · rw [List.mem_singleton.mp member]
      rfl

/-- The name in an end tag is told from what follows it. -/
theorem name_of_renderEnd_eq (clear : Clear element) (clear' : Clear element')
    (full : element.isBare = false) (full' : element'.isBare = false) {rest rest' : List Char}
    (same : element.name.toList ++ '>' :: rest = element'.name.toList ++ '>' :: rest') :
    element.name = element'.name ∧ rest = rest' := by
  have cut := congrArg (splitTag? none) same
  rw [Markup.splitTag?_of_isEnclosed (clear.delimited.ending full),
    Markup.splitTag?_of_isEnclosed (clear'.delimited.ending full'), Option.some.injEq,
    Prod.mk.injEq] at cut
  exact ⟨String.toList_inj.mp cut.1, cut.2⟩

end Tags

/-! ## Elements -/

section Elements

variable {p : Element → Prop} {element element' : Element} {children children' : List Element}

/-- Elements with the same canonical text, of which `p` holds throughout. -/
abbrev AgreeTags (p : Element → Prop) : Element → Element → Prop :=
  Agree Element.children fun element element' => SameTag element element' ∧ p element ∧ p element'

/-- Whatever follows it, the element is told from its canonical text. -/
def Told (p : Element → Prop) (element : Element) : Prop :=
  ∀ {element' : Element} {rest rest' : List Char}, element'.Throughout p →
    canonicalize element.render ++ rest = canonicalize element'.render ++ rest' →
    AgreeTags p element element' ∧ rest = rest'

theorem canonicalize_renderAll_cons (child : Element) (others : List Element) :
    canonicalize (renderAll (child :: others)) =
      canonicalize child.render ++ canonicalize (renderAll others) := by
  rw [renderAll, canonicalize_append (renderAll_noDigit others)]

/-- An element does not look like an end tag. -/
theorem canonicalize_renderAll_append_ne (clear : Clear element) (rest more : List Char) :
    canonicalize (renderAll (element :: children)) ++ rest ≠ '<' :: '/' :: more := by
  intro same
  rw [canonicalize_renderAll_cons, canonicalize_render_eq, List.cons_append, List.cons_append,
    List.append_assoc, List.append_assoc] at same
  exact markText_append_ne clear _ _ (List.cons.inj same).2

/-- Elements up to an end tag are told from their canonical texts. -/
theorem forall₂_of_canonicalize_eq (clear : ∀ {element}, p element → Clear element)
    (told : ∀ child ∈ children, Told p child) (each : ∀ child ∈ children, child.Throughout p)
    (each' : ∀ child ∈ children', child.Throughout p) {rest rest' : List Char}
    (same : canonicalize (renderAll children) ++ '<' :: '/' :: rest =
      canonicalize (renderAll children') ++ '<' :: '/' :: rest') :
    List.Forall₂ (AgreeTags p) children children' ∧ rest = rest' := by
  induction children generalizing children' with
  | nil =>
    cases children' with
    | nil => exact ⟨.nil, (List.cons.inj (List.cons.inj same).2).2⟩
    | cons child' others' =>
      have own := clear (each' child' List.mem_cons_self).here
      exact absurd same.symm (canonicalize_renderAll_append_ne own _ _)
  | cons child others ih =>
    cases children' with
    | nil =>
      have own := clear (each child List.mem_cons_self).here
      exact absurd same (canonicalize_renderAll_append_ne own _ _)
    | cons child' others' =>
      rw [canonicalize_renderAll_cons, canonicalize_renderAll_cons, List.append_assoc,
        List.append_assoc] at same
      obtain ⟨agree, same⟩ := told child List.mem_cons_self (each' child' List.mem_cons_self) same
      obtain ⟨agreeAll, same⟩ := ih (fun other later => told other (List.mem_cons_of_mem _ later))
        (fun other later => each other (List.mem_cons_of_mem _ later))
        (fun other later => each' other (List.mem_cons_of_mem _ later)) same
      exact ⟨.cons agree agreeAll, same⟩

/-- Children and an end tag start with `<`. -/
theorem exists_opening (children : List Element) (rest : List Char) :
    ∃ back, canonicalize (renderAll children) ++ '<' :: rest = '<' :: back := by
  cases children with
  | nil => exact ⟨rest, rfl⟩
  | cons child others =>
    rw [canonicalize_renderAll_cons, canonicalize_render_eq]
    exact ⟨_, rfl⟩

theorem contentText_of_bare (bare : element.isBare = true) : contentText element = [] :=
  if_pos bare

theorem contentText_of_full (clear : Clear element) (full : element.isBare = false) :
    contentText element = canonicalize (escape (element.text.getD "").toList) ++
      (canonicalize (renderAll element.children) ++
        '<' :: '/' :: (element.name.toList ++ ['>'])) := by
  rw [contentText, full, if_neg Bool.false_ne_true, canonicalize_renderEnd clear, List.append_assoc]

/-- The text of an element is told from what follows it. -/
theorem children_of_contentText_eq (clear : Clear element) (clear' : Clear element')
    (full : element.isBare = false) (full' : element'.isBare = false) {rest rest' : List Char}
    (same : contentText element ++ rest = contentText element' ++ rest') :
    canonicalize (renderAll element.children) ++
        '<' :: '/' :: (element.name.toList ++ '>' :: rest) =
      canonicalize (renderAll element'.children) ++
        '<' :: '/' :: (element'.name.toList ++ '>' :: rest') := by
  have regroup : ∀ (text content name rest : List Char),
      text ++ (content ++ '<' :: '/' :: (name ++ ['>'])) ++ rest =
        text ++ (content ++ '<' :: '/' :: (name ++ '>' :: rest)) := by simp
  rw [contentText_of_full clear full, contentText_of_full clear' full', regroup, regroup] at same
  obtain ⟨back, opening⟩ :=
    exists_opening element.children ('/' :: (element.name.toList ++ '>' :: rest))
  obtain ⟨back', opening'⟩ :=
    exists_opening element'.children ('/' :: (element'.name.toList ++ '>' :: rest'))
  rw [opening, opening'] at same ⊢
  have noTag : ∀ text : String, '<' ∉ canonicalize (escape text.toList) := fun text =>
    not_mem_canonicalize_escape rfl (by decide) _
  rw [(eq_of_cut (noTag _) (noTag _) same).2]

theorem children_of_isBare (bare : element.isBare = true) : element.children = [] := by
  rw [Markup.Element.isBare, Bool.and_eq_true] at bare
  exact List.isEmpty_iff.mp bare.2

/-- Elements are told from their canonical texts. -/
theorem told_of_throughout (clear : ∀ {element}, p element → Clear element)
    (here : element.Throughout p) : Told p element := by
  induction here with
  | @node element own below ih =>
    intro element' rest rest' throughout' same
    obtain ⟨own', below'⟩ := throughout'
    obtain ⟨mark, content⟩ := markText_of_canonicalize_eq (clear own) (clear own') same
    obtain ⟨bare, tag⟩ := tagText_of_markText_eq (clear own) (clear own') mark
    cases closed : element.isBare with
    | true =>
      have closed' := bare.symm.trans closed
      rw [contentText_of_bare closed, contentText_of_bare closed'] at content
      refine ⟨.node ⟨⟨bare, tag, fun full => ?_⟩, own, own'⟩ ?_, content⟩
      · rw [closed] at full
        cases full
      · rw [children_of_isBare closed, children_of_isBare closed']
        exact .nil
    | false =>
      have closed' := bare.symm.trans closed
      obtain ⟨agree, ending⟩ := forall₂_of_canonicalize_eq clear ih below below'
        (children_of_contentText_eq (clear own) (clear own') closed closed' content)
      obtain ⟨named, after⟩ := name_of_renderEnd_eq (clear own) (clear own') closed closed' ending
      exact ⟨.node ⟨⟨bare, tag, fun _ => named⟩, own, own'⟩ agree, after⟩

/-- Elements with the same canonical text have the same tags in the same places. -/
theorem agree_of_canonicalize_eq (clear : ∀ {element}, p element → Clear element)
    (here : element.Throughout p) (here' : element'.Throughout p)
    (same : canonicalize element.render = canonicalize element'.render) :
    AgreeTags p element element' :=
  (told_of_throughout clear here here' (congrArg (· ++ []) same)).1

end Elements

end RuleNet.Rule
