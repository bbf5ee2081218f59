import RuleNet.Markup.Document
import RuleNet.Markup.Printer
import RuleNet.Proofs.Markup.Reading

/-!
# Printed elements read back

A printed element consists of pieces, tags and texts. The pieces may be spread
out with layout before, between and behind them (`Spread`): what is read is the
element with all of its texts trimmed (`parse_spread`), as long as its tags can
be told from what stands around them.
-/

namespace RuleNet.Markup

open Text (isLayout trim Tight)

namespace Element

/-! ## Printed forms -/

mutual
/-- The pieces of the printed form: tags and texts. An element with children has
a text before them, if only an empty one. -/
def pieces : Element → List (List Char)
  | ⟨name, attributes, text, children⟩ =>
      if text.isNone && children.isEmpty then [renderHead name attributes ++ "/>".toList]
      else
        (renderHead name attributes ++ ['>']) :: escape (text.getD "").toList ::
          (piecesAll children ++ [renderEnd name])

/-- The pieces of several elements, one after the other. -/
def piecesAll : List Element → List (List Char)
  | [] => []
  | element :: rest => pieces element ++ piecesAll rest
end

mutual
/-- Put together, the pieces are the printed form. -/
theorem flatten_pieces : ∀ element : Element, element.pieces.flatten = element.render
  | ⟨name, attributes, text, children⟩ => by
      unfold pieces render
      split
      · exact List.append_nil _
      · rw [List.flatten_cons, List.flatten_cons, List.flatten_append, flatten_piecesAll children,
          List.flatten_singleton, List.append_assoc, List.singleton_append, List.append_assoc,
          List.append_assoc, List.cons_append]

theorem flatten_piecesAll : ∀ elements : List Element,
    (piecesAll elements).flatten = renderAll elements
  | [] => rfl
  | element :: rest => by
      unfold piecesAll renderAll
      rw [List.flatten_append, flatten_pieces element, flatten_piecesAll rest]
end

/-- The property holds of the element and of everything below it. -/
inductive Throughout (p : Element → Prop) : Element → Prop
  | node {element : Element} (here : p element)
      (below : ∀ child ∈ element.children, Throughout p child) : Throughout p element

theorem Throughout.mono {p q : Element → Prop} (weaker : ∀ element, p element → q element)
    {element : Element} (h : element.Throughout p) : element.Throughout q := by
  induction h with
  | node here _ ih => exact .node (weaker _ here) ih

theorem Throughout.here {p : Element → Prop} {element : Element} (h : element.Throughout p) :
    p element := by
  cases h
  assumption

mutual
/-- A property that can be decided can be decided throughout an element. -/
def decideThroughout {p : Element → Prop} [DecidablePred p] :
    (element : Element) → Decidable (element.Throughout p)
  | ⟨name, attributes, text, children⟩ =>
      if here : p ⟨name, attributes, text, children⟩ then
        match decideThroughoutAll children with
        | isTrue below => isTrue (.node here below)
        | isFalse not => isFalse fun h => not (by cases h; assumption)
      else isFalse fun h => here (by cases h; assumption)

/-- The same for every element of a list. -/
def decideThroughoutAll {p : Element → Prop} [DecidablePred p] :
    (elements : List Element) → Decidable (∀ child ∈ elements, child.Throughout p)
  | [] => isTrue fun _ none => absurd none List.not_mem_nil
  | element :: rest =>
      match decideThroughout element with
      | isFalse not => isFalse fun all => not (all element List.mem_cons_self)
      | isTrue first =>
          match decideThroughoutAll rest with
          | isTrue others => isTrue (List.forall_mem_cons.mpr ⟨first, others⟩)
          | isFalse not => isFalse fun all => not (List.forall_mem_cons.mp all).2
end

instance {p : Element → Prop} [DecidablePred p] (element : Element) :
    Decidable (element.Throughout p) :=
  decideThroughout element

/-! ## What is read back -/

/-- The text without the layout at its ends, if anything is left. -/
def trimmedText (text : Option String) : Option String :=
  let inner := trim isLayout (text.getD "").toList
  if inner = [] then none else some (String.ofList inner)

mutual
/-- The element with all of its texts trimmed. -/
def trimmed : Element → Element
  | ⟨name, attributes, text, children⟩ =>
      ⟨name, attributes, trimmedText text, trimmedAll children⟩

/-- The elements with all of their texts trimmed. -/
def trimmedAll : List Element → List Element
  | [] => []
  | element :: rest => trimmed element :: trimmedAll rest
end

mutual
/-- The events of the printed form. -/
def trace : Element → List Event
  | ⟨name, attributes, text, children⟩ =>
      if text.isNone && children.isEmpty then [.empty name attributes]
      else
        .opening name attributes ::
          (textEvents (text.getD "").toList ++ (traceAll children ++ [.closing name]))

/-- The events of several elements, one after the other. -/
def traceAll : List Element → List Event
  | [] => []
  | element :: rest => trace element ++ traceAll rest
end

/-! ### The tree of the events -/

theorem foldlM_textEvents (text : List Char) (element : Element) (outer : List Element)
    (root : Option Element) :
    (textEvents text).foldlM Assembly.step ⟨element :: outer, root⟩ =
      .ok ⟨element.addText (String.ofList (trim isLayout text)) :: outer, root⟩ := by
  unfold textEvents
  split
  · next nothing =>
    rw [nothing]
    rfl
  · rfl

theorem addText_trimmed (name : String) (attributes : List (String × String))
    (text : Option String) :
    ({ name := name, attributes := attributes } : Element).addText
        (String.ofList (trim isLayout (text.getD "").toList)) =
      ⟨name, attributes, trimmedText text, []⟩ := by
  unfold addText trimmedText
  generalize trim isLayout (text.getD "").toList = inner
  cases inner with
  | nil => rfl
  | cons c rest =>
    have content : (String.ofList (c :: rest)).isEmpty = false := by
      rw [Bool.eq_false_iff, ne_eq, String.isEmpty_iff, String.ofList_eq_empty_iff]
      exact List.cons_ne_nil c rest
    dsimp only
    rw [content, if_neg (List.cons_ne_nil c rest)]
    show Element.mk _ _ (some ("" ++ String.ofList (c :: rest))) _ = _
    rw [String.empty_append]

theorem foldlM_traceAll {children : List Element}
    (each : ∀ child ∈ children, ∀ assembly : Assembly,
      child.trace.foldlM Assembly.step assembly = assembly.attach child.trimmed)
    (element : Element) (outer : List Element) (root : Option Element) :
    (traceAll children).foldlM Assembly.step ⟨element :: outer, root⟩ =
      .ok
        ⟨{ element with children := element.children ++ trimmedAll children } :: outer, root⟩ := by
  induction children generalizing element with
  | nil =>
    unfold traceAll trimmedAll
    rw [List.append_nil]
    cases element
    rfl
  | cons child rest ih =>
    unfold traceAll trimmedAll
    rw [List.foldlM_append, each child List.mem_cons_self]
    show (traceAll rest).foldlM Assembly.step ⟨element.addChild child.trimmed :: outer, root⟩ = _
    rw [ih fun child member => each child (List.mem_cons_of_mem _ member)]
    unfold addChild
    rw [List.append_assoc, List.singleton_append]

/-- The events of a printed element add the element, with its texts trimmed. -/
theorem foldlM_trace (element : Element) (assembly : Assembly) :
    element.trace.foldlM Assembly.step assembly = assembly.attach element.trimmed := by
  induction element using Element.induction generalizing assembly with
  | step element ih =>
    obtain ⟨name, attributes, text, children⟩ := element
    obtain ⟨outer, root⟩ := assembly
    unfold trace trimmed
    split
    · next bare =>
      rw [Bool.and_eq_true, Option.isNone_iff_eq_none, List.isEmpty_iff] at bare
      obtain ⟨rfl, rfl⟩ := bare
      show Assembly.attach _ _ >>= pure = _
      rw [bind_pure]
      rfl
    · -- the element is open while its text and its children are added, and
      -- attached where it would have been attached at its start
      show (textEvents _ ++ (traceAll children ++ [Event.closing name])).foldlM Assembly.step
        ⟨{ name := name, attributes := attributes } :: outer, root⟩ = _
      rw [List.foldlM_append, foldlM_textEvents, addText_trimmed]
      show (traceAll children ++ [Event.closing name]).foldlM Assembly.step _ = _
      rw [List.foldlM_append, foldlM_traceAll ih]
      show Assembly.attach _ _ >>= pure = _
      rw [bind_pure]
      rfl

/-! ## Spread out -/

/-- The text is made of the pieces, in their order, with layout before, between
and behind them. -/
inductive Spread : List (List Char) → List Char → Prop
  | nil {gap : List Char} (blank : IsGap gap) : Spread [] gap
  | cons {gap piece text : List Char} {pieces : List (List Char)} (blank : IsGap gap)
      (later : Spread pieces text) : Spread (piece :: pieces) (gap ++ (piece ++ text))

/-- The same layout everywhere is a way to spread pieces. -/
theorem spread_flatMap {gap : List Char} (blank : IsGap gap) (pieces : List (List Char)) :
    Spread pieces (pieces.flatMap (gap ++ ·) ++ gap) := by
  induction pieces with
  | nil => exact .nil blank
  | cons piece pieces ih =>
    rw [List.flatMap_cons, List.append_assoc, List.append_assoc]
    exact .cons blank ih

/-- No layout at all is a way to spread pieces. -/
theorem spread_flatten (pieces : List (List Char)) : Spread pieces pieces.flatten := by
  have spread := spread_flatMap (fun _ none => absurd none List.not_mem_nil) pieces
  rw [List.append_nil] at spread
  rw [← List.flatMap_id]
  exact spread

theorem Spread.reads_tag {tag text : List Char} {pieces : List (List Char)}
    {openNames openNames' : List String} {event : Event}
    (spread : Spread (('<' :: tag) :: pieces) text)
    (read : ∀ rest, readMarkup openNames (tag ++ rest) = .ok ⟨event, openNames', rest⟩) :
    ∃ rest, Spread pieces rest ∧ Reads openNames text [event] openNames' rest := by
  cases spread with
  | cons blank later => exact ⟨_, later, Markup.reads_tag blank (read _)⟩

theorem Spread.reads_text {written tag text : List Char} {pieces : List (List Char)}
    (spread : Spread (escape written :: ('<' :: tag) :: pieces) text) (openNames : List String) :
    ∃ rest, Spread (('<' :: tag) :: pieces) rest ∧
      Reads openNames text (textEvents written) openNames rest := by
  cases spread with
  | cons before later =>
    cases later with
    | cons after later =>
      obtain ⟨gap, blank, reads⟩ := Markup.reads_text before after written openNames _
      exact ⟨_, .cons blank later, reads⟩

/-! ## Reading what is printed -/

/-- The printed element is only its one tag. -/
def isBare (element : Element) : Bool :=
  element.text.isNone && element.children.isEmpty

/-- The tags of the printed element end where they are meant to end, and are
what they are meant to be. -/
structure Delimited (element : Element) : Prop where
  inside : isEnclosed none (inside element.name element.attributes) = true
  bare : element.isBare = true → Markup.inside element.name element.attributes ≠ []
  start : element.isBare = false →
    (Markup.inside element.name element.attributes).getLast? ≠ some '/'
  ending : element.isBare = false → isEnclosed none element.name.toList = true

instance (element : Element) : Decidable element.Delimited :=
  decidable_of_iff
    (isEnclosed none (inside element.name element.attributes) = true ∧
      (element.isBare = true → Markup.inside element.name element.attributes ≠ []) ∧
      (element.isBare = false →
        (Markup.inside element.name element.attributes).getLast? ≠ some '/') ∧
      (element.isBare = false → isEnclosed none element.name.toList = true))
    ⟨fun ⟨inside, bare, start, ending⟩ => ⟨inside, bare, start, ending⟩,
      fun ⟨inside, bare, start, ending⟩ => ⟨inside, bare, start, ending⟩⟩

/-- A name, and keys, without quotes and `<`, `>`, `&` and `/` see to that. -/
theorem delimited_of_names {element : Element} (named : element.name ≠ "")
    (name : ∀ c ∈ element.name.toList, isSpecial c = false ∧ c ≠ '/')
    (keys : ∀ pair ∈ element.attributes, ∀ c ∈ pair.1.toList, isSpecial c = false) :
    element.Delimited where
  inside := by
    unfold Markup.inside
    rw [isEnclosed_append (isEnclosed_of_not_isSpecial fun c member => (name c member).1)]
    exact isEnclosed_renderAttributes keys
  bare := by
    intro _ nothing
    exact named (String.toList_eq_nil_iff.mp (List.append_eq_nil_iff.mp nothing).1)
  start := by
    intro _ slash
    unfold Markup.inside at slash
    rw [List.getLast?_append] at slash
    cases behind : (renderAttributes element.attributes).getLast? with
    | some c =>
      rw [behind] at slash
      have quote := getLast?_renderAttributes behind
      rw [Option.some.inj slash] at quote
      cases quote
    | none =>
      rw [behind] at slash
      exact (name '/' (List.mem_of_getLast? slash)).2 rfl
  ending := fun _ => isEnclosed_of_not_isSpecial fun c member => (name c member).1

/-- The tags of the element can be told from what stands around them and read back. -/
structure Printable (element : Element) : Prop where
  readable : Readable element.name element.attributes
  delimited : element.Delimited

/-- A printed element starts with a tag. -/
theorem exists_pieces (element : Element) :
    ∃ tag others, element.pieces = ('<' :: tag) :: others := by
  obtain ⟨name, attributes, text, children⟩ := element
  unfold pieces
  split
  · exact ⟨_, _, rfl⟩
  · exact ⟨_, _, rfl⟩

/-- What follows a text is a tag. -/
theorem exists_tag (children : List Element) (name : String) (more : List (List Char)) :
    ∃ tag others, piecesAll children ++ (renderEnd name :: more) = ('<' :: tag) :: others := by
  cases children with
  | nil =>
    unfold piecesAll
    exact ⟨_, _, rfl⟩
  | cons child rest =>
    obtain ⟨tag, others, first⟩ := exists_pieces child
    unfold piecesAll
    rw [first]
    exact ⟨_, _, rfl⟩

/-- Off a text that starts with the spread pieces of some elements, their events are read. -/
theorem reads_piecesAll {children : List Element}
    (each : ∀ child ∈ children, ∀ {more text} (openNames : List String),
      Spread (child.pieces ++ more) text →
        ∃ rest, Spread more rest ∧ Reads openNames text child.trace openNames rest)
    {more : List (List Char)} {text : List Char} (openNames : List String)
    (spread : Spread (piecesAll children ++ more) text) :
    ∃ rest, Spread more rest ∧ Reads openNames text (traceAll children) openNames rest := by
  induction children generalizing text with
  | nil =>
    unfold piecesAll at spread
    unfold traceAll
    exact ⟨text, spread, .refl⟩
  | cons child children ih =>
    unfold piecesAll at spread
    unfold traceAll
    rw [List.append_assoc] at spread
    obtain ⟨middle, spread, first⟩ := each child List.mem_cons_self openNames spread
    obtain ⟨rest, spread, later⟩ :=
      ih (fun child member => each child (List.mem_cons_of_mem _ member)) spread
    exact ⟨rest, spread, first.trans later⟩

/-- Off a text that starts with the spread pieces of an element, its events are read. -/
theorem reads_pieces {element : Element} (printable : element.Throughout Printable)
    {more : List (List Char)} {text : List Char} (openNames : List String)
    (spread : Spread (element.pieces ++ more) text) :
    ∃ rest, Spread more rest ∧ Reads openNames text element.trace openNames rest := by
  induction printable generalizing more text openNames with
  | @node element here below ih =>
    obtain ⟨readable, delimited⟩ := here
    obtain ⟨name, attributes, content, children⟩ := element
    unfold pieces at spread
    unfold trace
    cases bare : content.isNone && children.isEmpty with
    | true =>
      rw [bare, if_pos rfl] at spread
      rw [if_pos rfl]
      refine spread.reads_tag fun rest => ?_
      exact readMarkup_empty readable delimited.inside (delimited.bare bare) openNames rest
    | false =>
      rw [bare, if_neg Bool.false_ne_true] at spread
      rw [if_neg Bool.false_ne_true]
      -- one after the other: the start tag, the text up to the next tag, the
      -- children, and the end tag, which closes the name the start tag opened
      have opening : ∀ rest, readMarkup openNames ((inside name attributes ++ ['>']) ++ rest) =
          .ok ⟨.opening name attributes, name :: openNames, rest⟩ := by
        intro rest
        rw [List.append_assoc]
        exact readMarkup_opening readable delimited.inside (delimited.start bare) openNames rest
      have closing : ∀ rest,
          readMarkup (name :: openNames) (('/' :: name.toList ++ ['>']) ++ rest) =
            .ok ⟨.closing name, openNames, rest⟩ := by
        intro rest
        rw [List.append_assoc]
        exact readMarkup_closing readable.plain (delimited.ending bare) openNames rest
      obtain ⟨_, spread, start⟩ := spread.reads_tag opening
      rw [List.append_eq, List.cons_append, List.append_assoc, List.singleton_append] at spread
      obtain ⟨tag, others, next⟩ := exists_tag children name more
      rw [next] at spread
      obtain ⟨_, spread, written⟩ := spread.reads_text (name :: openNames)
      rw [← next] at spread
      obtain ⟨_, spread, inner⟩ := reads_piecesAll ih (name :: openNames) spread
      obtain ⟨rest, spread, finish⟩ := spread.reads_tag closing
      exact ⟨rest, spread, start.trans (written.trans (inner.trans finish))⟩

/-- No byte order mark is in front of a tag or layout. -/
theorem spread_without_mark {tag text : List Char} {pieces : List (List Char)}
    (spread : Spread (('<' :: tag) :: pieces) text) : Text.dropByteOrderMark text = text := by
  unfold Text.dropByteOrderMark
  split
  · next rest =>
    generalize whole : '\uFEFF' :: rest = marked at spread
    cases spread with
    | @cons gap _ _ _ blank _ =>
      cases gap with
      | nil => exact absurd (List.cons.inj whole).1 (by decide)
      | cons c gap =>
        have layout : isLayout c = true := blank c List.mem_cons_self
        rw [← (List.cons.inj whole).1] at layout
        cases layout
  · rfl

/-- Whatever layout its pieces are spread with, a printed element is read as the
element with all of its texts trimmed. -/
theorem parse_spread {element : Element} (printable : element.Throughout Printable)
    {text : List Char} (spread : Spread element.pieces text) :
    parse (String.ofList text) = .ok element.trimmed := by
  have mark : Text.dropByteOrderMark text = text := by
    obtain ⟨tag, others, first⟩ := exists_pieces element
    exact spread_without_mark (first ▸ spread)
  rw [← List.append_nil element.pieces] at spread
  obtain ⟨rest, left, reads⟩ := reads_pieces printable [] spread
  have done : readEvent? [] rest = none := by
    cases left with
    | nil blank => exact readEvent?_gap blank []
  unfold parse
  rw [String.toList_ofList, mark]
  dsimp only
  rw [reads.events_eq done]
  dsimp only
  rw [foldlM_trace]
  rfl

/-! ## Elements that read back unchanged -/

/-- The text, if there is one, is not empty and has no layout at its ends. -/
def TightText (element : Element) : Prop :=
  ∀ text, element.text = some text → text ≠ "" ∧ Tight isLayout text.toList

instance (element : Element) : Decidable element.TightText :=
  inferInstanceAs (Decidable
    (∀ text, element.text = some text → text ≠ "" ∧ Tight isLayout text.toList))

theorem trimmedText_eq_self_iff {text : Option String} :
    trimmedText text = text ↔ ∀ t, text = some t → t ≠ "" ∧ Tight isLayout t.toList := by
  cases text with
  | none =>
    refine ⟨fun _ _ none => ?_, fun _ => rfl⟩
    cases none
  | some t =>
    unfold trimmedText
    dsimp only [Option.getD_some]
    constructor
    · rintro same _ ⟨⟩
      split at same
      · cases same
      · next content =>
        have kept : trim isLayout t.toList = t.toList := by
          rw [← String.toList_ofList (l := trim isLayout t.toList), Option.some.inj same]
        refine ⟨?_, Text.trim_eq_self_iff.mp kept⟩
        rintro rfl
        exact content rfl
    · intro tight
      obtain ⟨content, tight⟩ := tight t rfl
      rw [Text.trim_eq_self_iff.mpr tight, String.ofList_toList, if_neg]
      rwa [String.toList_eq_nil_iff]

theorem trimmedAll_eq_self_iff {elements : List Element} :
    trimmedAll elements = elements ↔ ∀ child ∈ elements, child.trimmed = child := by
  induction elements with
  | nil =>
    unfold trimmedAll
    exact ⟨fun _ _ none => absurd none List.not_mem_nil, fun _ => rfl⟩
  | cons element rest ih =>
    unfold trimmedAll
    rw [List.cons.injEq, ih, List.forall_mem_cons]

/-- Exactly the elements whose texts are trimmed already stay the same. -/
theorem trimmed_eq_self_iff (element : Element) :
    element.trimmed = element ↔ element.Throughout TightText := by
  induction element using Element.induction with
  | step element ih =>
    obtain ⟨name, attributes, text, children⟩ := element
    unfold trimmed
    rw [Element.mk.injEq, trimmedAll_eq_self_iff, trimmedText_eq_self_iff]
    constructor
    · rintro ⟨-, -, own, below⟩
      exact .node own fun child member => (ih child member).mp (below child member)
    · rintro ⟨own, below⟩
      exact ⟨rfl, rfl, own, fun child member => (ih child member).mpr (below child member)⟩

end Element

end RuleNet.Markup
