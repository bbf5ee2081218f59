import RuleNet.Proofs.Markup.RoundTrip

/-!
# Documents printed and read again

Whatever a document looks like, the element that is read from it has tags that
can be read back and no empty texts (`made_of_parse`). Unless a name is so odd
that the printed tags do not end where they should, printing the element and
reading it again trims its texts and does nothing else (`parse_toMarkup_of_parse`).

Texts are trimmed before they are unescaped. A text can therefore start or end
with a blank that was written as a character reference, and such a blank is
lost when the element is printed and read again (`blank_reference_lost`).
-/

namespace RuleNet.Markup

open Text (isLayout Tight)

namespace Element

theorem Throughout.and {p q : Element → Prop} {element : Element} (first : element.Throughout p)
    (second : element.Throughout q) : element.Throughout fun element => p element ∧ q element := by
  induction first with
  | node here _ ih =>
    cases second with
    | node here' below =>
      exact .node ⟨here, here'⟩ fun child member => ih child member (below child member)

/-- The element is one that can come out of reading: its tag reads back, and its
text is not empty. -/
structure Made (element : Element) : Prop where
  readable : Readable element.name element.attributes
  text : element.text ≠ some ""

variable {element : Element}

theorem made_new {name : String} {attributes : List (String × String)}
    (readable : Readable name attributes) :
    Throughout Made { name := name, attributes := attributes } :=
  .node ⟨readable, fun same => nomatch same⟩ fun _ none => nomatch none

theorem made_addChild {child : Element} (parent : element.Throughout Made)
    (made : child.Throughout Made) : (element.addChild child).Throughout Made := by
  cases parent with
  | node here below =>
    refine .node ⟨here.readable, here.text⟩ fun other member => ?_
    rcases List.mem_append.mp member with member | member
    · exact below other member
    · exact List.mem_singleton.mp member ▸ made

theorem made_addText (made : element.Throughout Made) (piece : String) :
    (element.addText piece).Throughout Made := by
  unfold addText
  split
  · exact made
  · next content =>
    cases made with
    | node here below =>
      refine .node ⟨here.readable, fun empty => content ?_⟩ below
      rw [String.isEmpty_iff]
      exact (String.append_eq_empty_iff.mp (Option.some.inj empty)).2

end Element

namespace Assembly

/-- All elements under construction can come out of reading. -/
structure Made (assembly : Assembly) : Prop where
  openElements : ∀ element ∈ assembly.openElements, element.Throughout Element.Made
  root : ∀ element, assembly.root = some element → element.Throughout Element.Made

variable {assembly after : Assembly} {element : Element}

theorem Made.attach (made : assembly.Made) (new : element.Throughout Element.Made)
    (h : assembly.attach element = .ok after) : after.Made := by
  obtain ⟨openElements, root⟩ := assembly
  unfold Assembly.attach at h
  cases openElements with
  | cons parent outer =>
    cases h
    refine ⟨fun other member => ?_, made.root⟩
    rcases List.mem_cons.mp member with rfl | member
    · exact Element.made_addChild (made.openElements parent List.mem_cons_self) new
    · exact made.openElements other (List.mem_cons_of_mem _ member)
  | nil =>
    cases root with
    | some other => cases h
    | none =>
      cases h
      refine ⟨made.openElements, ?_⟩
      rintro _ ⟨⟩
      exact new

theorem Made.addText (made : assembly.Made) (piece : String) : (assembly.addText piece).Made := by
  obtain ⟨openElements, root⟩ := assembly
  unfold Assembly.addText
  cases openElements with
  | nil => exact made
  | cons element outer =>
    refine ⟨fun other member => ?_, made.root⟩
    rcases List.mem_cons.mp member with rfl | member
    · exact Element.made_addText (made.openElements element List.mem_cons_self) piece
    · exact made.openElements other (List.mem_cons_of_mem _ member)

/-- One event keeps them such. -/
theorem Made.step (made : assembly.Made) {event : Event} (shaped : event.Shaped)
    (h : assembly.step event = .ok after) : after.Made := by
  cases event with
  | opening name attributes =>
    cases h
    refine ⟨fun other member => ?_, made.root⟩
    rcases List.mem_cons.mp member with rfl | member
    · exact Element.made_new shaped
    · exact made.openElements other member
  | empty name attributes => exact made.attach (Element.made_new shaped) h
  | closing name =>
    -- the element was opened by a tag with attributes; the name of the end tag does not count
    obtain ⟨openElements, root⟩ := assembly
    unfold Assembly.step at h
    cases openElements with
    | nil => cases h
    | cons element outer =>
      have rest : Made ⟨outer, root⟩ :=
        ⟨fun other member => made.openElements other (List.mem_cons_of_mem _ member), made.root⟩
      exact rest.attach (made.openElements element List.mem_cons_self) h
  | text content =>
    cases h
    exact made.addText content
  | characterData content =>
    cases h
    exact made.addText _
  | aside =>
    cases h
    exact made

/-- So do any number of events. -/
theorem Made.foldlM {events : List Event} (made : assembly.Made)
    (shaped : ∀ event ∈ events, event.Shaped)
    (h : events.foldlM Assembly.step assembly = .ok after) : after.Made := by
  induction events generalizing assembly with
  | nil =>
    cases h
    exact made
  | cons event events ih =>
    rw [List.foldlM_cons] at h
    obtain ⟨next, stepped, h⟩ := exists_of_bind_eq_ok h
    exact ih (made.step (shaped event List.mem_cons_self) stepped)
      (fun event member => shaped event (List.mem_cons_of_mem _ member)) h

end Assembly

theorem shaped_eventsFrom (fuel : Nat) (openNames : List String) (text : List Char) :
    ∀ event ∈ (eventsFrom fuel openNames text).1, event.Shaped := by
  induction fuel generalizing openNames text with
  | zero => exact fun _ none => nomatch none
  | succ fuel ih =>
    unfold eventsFrom
    split
    · exact fun _ none => nomatch none
    · exact fun _ none => nomatch none
    · next reading next =>
      intro event member
      rcases List.mem_cons.mp member with rfl | member
      · exact (readEvent?_eq_ok next).1
      · exact ih _ _ event member

namespace Element

variable {element : Element} {text : String}

/-- What is read from any document. -/
theorem made_of_parse (accepted : parse text = .ok element) : element.Throughout Made := by
  unfold parse at accepted
  dsimp only at accepted
  split at accepted
  · cases accepted
  · cases accepted
  · next assembly built _ =>
    have empty : Assembly.Made {} :=
      ⟨fun _ none => absurd none List.not_mem_nil, fun _ same => nomatch same⟩
    have made := empty.foldlM (shaped_eventsFrom _ _ _) built
    obtain ⟨openElements, root⟩ := assembly
    unfold Assembly.finish at accepted
    split at accepted
    · cases accepted
    · next root =>
      cases accepted
      exact made.root element root
    · cases accepted

/-- An element that was read from a document is printed and read again as itself
with all of its texts trimmed. -/
theorem parse_toMarkup_of_parse (accepted : parse text = .ok element)
    (delimited : element.Throughout Delimited) :
    parse element.toMarkup = .ok element.trimmed ∧
      (parse element.toMarkup = .ok element ↔ element.Throughout TightText) := by
  have printable : element.Throughout Printable :=
    ((made_of_parse accepted).and delimited).mono fun _ ⟨made, delimited⟩ =>
      ⟨made.readable, delimited⟩
  have again : parse element.toMarkup = .ok element.trimmed := by
    unfold toMarkup
    rw [← flatten_pieces]
    exact parse_spread printable (spread_flatten _)
  refine ⟨again, ?_⟩
  rw [again, Except.ok.injEq]
  exact trimmed_eq_self_iff element

theorem parse_toMarkup_of_parse_mixed :
    let text := "<?xml?><a x='\"&#10;' ><!-- > -->t&amp;u<b/><![CDATA[ <v> ]]> w <c ></c></a>"
    let element : Element := ⟨"a", [("x", "\"\n")], some "t&u<v>w",
      [⟨"b", [], none, []⟩, ⟨"c", [], none, []⟩]⟩
    parse text = .ok element ∧ parse element.toMarkup = .ok element := by
  intro text element
  have accepted : parse text = .ok element := by decide +kernel
  have delimited : element.Throughout Delimited := by decide +kernel
  have tight : element.Throughout TightText := by decide +kernel
  exact ⟨accepted, (parse_toMarkup_of_parse accepted delimited).2.mpr tight⟩

/-- A blank that is written as a reference is read as part of the text, but when
the text is printed it is written as it is, and then it is layout. -/
theorem blank_reference_lost :
    ∃ element, parse "<a>&#32;x</a>" = .ok element ∧ element.toMarkup = "<a> x</a>" ∧
      parse element.toMarkup = .ok { element with text := some "x" } ∧
      parse element.toMarkup ≠ .ok element := by
  refine ⟨{ name := "a", text := some " x" }, ?_, ?_, ?_, ?_⟩ <;> decide +kernel

end Element

end RuleNet.Markup
