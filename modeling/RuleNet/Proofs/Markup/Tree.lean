import Mathlib.Data.List.Induction
import RuleNet.Proofs.Markup.Reading

/-!
# The tree of a document

The events of a document are the contents of nested elements, written one after
the other. `Contents` is the grammar of such sequences, with the parts that they
denote; `Opened` is the grammar of what the reader has seen at some point, when
elements may still be open. The elements under construction are computed from the
parts of the open elements alone (`Opened.foldlM_step`), and the reader never
leaves the grammar: the open elements have the names that it holds itself
(`exists_opened`), so no end tag comes unexpected.

* `parse_tree`: a text without faults is the one element its events denote, or
  refused because of a second element at the top level, an open element or no
  element, in this order.
-/

namespace RuleNet.Markup

/-! ## What elements are made of -/

/-- A part of the content of an element. -/
inductive Part where
  /-- A piece of text. -/
  | piece (content : String)
  /-- A child element. -/
  | child (element : Element)
deriving DecidableEq, Repr

namespace Part

/-- The text of the part, if it is one. -/
def text? : Part → Option String
  | piece content => some content
  | child _ => none

/-- The element that the part is, if it is one. -/
def element? : Part → Option Element
  | piece _ => none
  | child element => some element

/-- The element with one more part at the end of its content. -/
def addTo (part : Part) (element : Element) : Element :=
  match part with
  | piece content => element.addText content
  | child inner => element.addChild inner

end Part

/-- The elements among the parts, in order. -/
def childrenOf (parts : List Part) : List Element :=
  parts.filterMap Part.element?

/-- The pieces of text among the parts, joined in order. Without a piece that is not
empty there is no text. -/
def textOf (parts : List Part) : Option String :=
  let pieces := parts.filterMap Part.text?
  if pieces.all String.isEmpty then none else some (String.join pieces)

/-- The element with the given tag and content. -/
def Element.ofParts (name : String) (attributes : List (String × String)) (parts : List Part) :
    Element :=
  ⟨name, attributes, textOf parts, childrenOf parts⟩

theorem join_eq_of_all_isEmpty {pieces : List String} (empty : pieces.all String.isEmpty = true) :
    String.join pieces = "" := by
  induction pieces with
  | nil => rfl
  | cons piece pieces ih =>
    rw [List.all_cons, Bool.and_eq_true, String.isEmpty_iff] at empty
    rw [String.join_cons, ih empty.2, empty.1]
    rfl

theorem join_snoc (pieces : List String) (piece : String) :
    String.join (pieces ++ [piece]) = String.join pieces ++ piece := by
  simp [String.join_append]

theorem getD_textOf (parts : List Part) :
    (textOf parts).getD "" = String.join (parts.filterMap Part.text?) := by
  unfold textOf
  dsimp only
  split
  · next empty => rw [join_eq_of_all_isEmpty empty]; rfl
  · rfl

/-- The text grows piece by piece. -/
theorem textOf_snoc (parts : List Part) (piece : String) :
    textOf (parts ++ [.piece piece]) =
      if piece.isEmpty then textOf parts else some ((textOf parts).getD "" ++ piece) := by
  rw [getD_textOf]
  unfold textOf
  simp only [List.filterMap_append, List.filterMap_cons, List.filterMap_nil, Part.text?,
    List.all_append, List.all_cons, List.all_nil, Bool.and_true, join_snoc]
  by_cases empty : piece.isEmpty = true
  · rw [if_pos empty, empty, Bool.and_true, String.isEmpty_iff.mp empty, String.append_empty]
  · rw [if_neg empty, Bool.not_eq_true _ |>.mp empty, Bool.and_false, if_neg Bool.false_ne_true]

variable {name : String} {attributes : List (String × String)}

theorem ofParts_snoc (parts : List Part) (part : Part) :
    Element.ofParts name attributes (parts ++ [part]) =
      part.addTo (Element.ofParts name attributes parts) := by
  cases part with
  | piece content =>
    unfold Element.ofParts
    rw [textOf_snoc]
    simp only [Part.addTo, Element.addText, childrenOf, List.filterMap_append,
      List.filterMap_cons, Part.element?, List.filterMap_nil, List.append_nil]
    split <;> rfl
  | child element =>
    simp only [Part.addTo, Element.ofParts, Element.addChild, childrenOf, textOf,
      List.filterMap_append, List.filterMap_cons, List.filterMap_nil, Part.element?, Part.text?,
      List.append_nil]

/-- Adding the parts one after the other gives the element with all of them. -/
theorem foldl_addTo (parts : List Part) :
    parts.foldl (fun element part => part.addTo element)
        { name := name, attributes := attributes } =
      Element.ofParts name attributes parts := by
  induction parts using List.reverseRecOn with
  | nil => rfl
  | append_singleton parts part ih => rw [List.foldl_append, ih, ofParts_snoc]; rfl

/-! ## The grammar of events -/

/-- The events that stand for content with the given parts: every element with its
own content in between its tags, and nothing for asides. Character data counts
without the blanks around it. -/
inductive Contents : List Event → List Part → Prop
  | nil : Contents [] []
  | aside {events : List Event} {parts : List Part} :
      Contents events parts → Contents (.aside :: events) parts
  | text {content : String} {events : List Event} {parts : List Part} :
      Contents events parts → Contents (.text content :: events) (.piece content :: parts)
  | characterData {content : String} {events : List Event} {parts : List Part} :
      Contents events parts →
      Contents (.characterData content :: events)
        (.piece (String.ofList (Text.trim Text.isBlank content.toList)) :: parts)
  | empty {name : String} {attributes : List (String × String)} {events : List Event}
      {parts : List Part} :
      Contents events parts →
      Contents (.empty name attributes :: events) (.child (.ofParts name attributes []) :: parts)
  | enclosed {name : String} {attributes : List (String × String)} {inner events : List Event}
      {inside parts : List Part} :
      Contents inner inside → Contents events parts →
      Contents (.opening name attributes :: (inner ++ .closing name :: events))
        (.child (.ofParts name attributes inside) :: parts)

/-- An element that is not closed yet, with the parts it has so far. -/
structure Frame where
  name : String
  attributes : List (String × String)
  parts : List Part
deriving DecidableEq, Repr

/-- The element, if it were closed now. -/
def Frame.element (frame : Frame) : Element :=
  .ofParts frame.name frame.attributes frame.parts

/-- The events that leave the elements of the frames open, innermost first, with the
given parts complete at the top level. -/
inductive Opened : List Event → List Frame → List Part → Prop
  | top {events : List Event} {parts : List Part} : Contents events parts → Opened events [] parts
  | within {name : String} {attributes : List (String × String)} {before inner : List Event}
      {frames : List Frame} {top parts : List Part} :
      Opened before frames top → Contents inner parts →
      Opened (before ++ .opening name attributes :: inner) (⟨name, attributes, parts⟩ :: frames) top

variable {events later : List Event} {parts more top : List Part} {frames : List Frame}

theorem Contents.append (first : Contents events parts) (second : Contents later more) :
    Contents (events ++ later) (parts ++ more) := by
  induction first with
  | nil => exact second
  | aside _ ih => exact .aside ih
  | text _ ih => exact .text ih
  | characterData _ ih => exact .characterData ih
  | empty _ ih => exact .empty ih
  | enclosed inner _ _ ih =>
    rw [List.cons_append, List.append_assoc, List.cons_append]
    exact .enclosed inner ih

/-- More content goes to the innermost open element. -/
theorem Opened.append (opened : Opened events frames top) (contents : Contents later more) :
    ∃ frames' top', Opened (events ++ later) frames' top' ∧
      frames'.map Frame.name = frames.map Frame.name := by
  cases opened with
  | top first => exact ⟨_, _, .top (first.append contents), rfl⟩
  | within before inner =>
    rw [List.append_assoc, List.cons_append]
    exact ⟨_, _, .within before (inner.append contents), rfl⟩

/-! ## Assembling what the grammar describes -/

/-- The effect of one part. -/
def Assembly.put (assembly : Assembly) : Part → Except MarkupError Assembly
  | .piece content => .ok (assembly.addText content)
  | .child element => assembly.attach element

/-- The assembly with the given elements open, when the given ones are complete at the
top level. -/
def Assembly.rooted (openElements : List Element) : List Element → Except MarkupError Assembly
  | [] => .ok ⟨openElements, none⟩
  | [root] => .ok ⟨openElements, some root⟩
  | _ :: second :: _ => .error (.multipleRoots second.name)

open Assembly (rooted)

/-- Inside of an element, parts are never refused. -/
theorem foldlM_put_open (element : Element) (outer : List Element) (root : Option Element)
    (parts : List Part) :
    parts.foldlM Assembly.put ⟨element :: outer, root⟩ =
      .ok ⟨parts.foldl (fun element part => part.addTo element) element :: outer, root⟩ := by
  induction parts generalizing element with
  | nil => rfl
  | cons part parts ih =>
    have placed : Assembly.put ⟨element :: outer, root⟩ part =
        .ok ⟨part.addTo element :: outer, root⟩ := by
      cases part <;> rfl
    rw [List.foldlM_cons, placed]
    exact ih (part.addTo element)

theorem foldlM_put_root (root : Element) (parts : List Part) :
    parts.foldlM Assembly.put ⟨[], some root⟩ = rooted [] (root :: childrenOf parts) := by
  induction parts with
  | nil => rfl
  | cons part parts ih =>
    cases part with
    | piece content => exact ih
    | child element => rfl

/-- At the top level, the first element is the root and the second one is refused. -/
theorem foldlM_put_top (parts : List Part) :
    parts.foldlM Assembly.put {} = rooted [] (childrenOf parts) := by
  induction parts with
  | nil => rfl
  | cons part parts ih =>
    cases part with
    | piece content => exact ih
    | child element => exact foldlM_put_root element parts

/-- Events have the effect of the parts they stand for. -/
theorem Contents.foldlM_step (contents : Contents events parts) (assembly : Assembly) :
    events.foldlM Assembly.step assembly = parts.foldlM Assembly.put assembly := by
  induction contents generalizing assembly with
  | nil => rfl
  | aside _ ih => exact ih assembly
  | text _ ih => exact ih _
  | characterData _ ih => exact ih _
  | empty _ ih => exact bind_congr ih
  | @enclosed name attributes inner events inside parts _ _ ihInner ih =>
    have filled := ihInner ⟨{ name := name, attributes := attributes } :: assembly.openElements,
      assembly.root⟩
    rw [foldlM_put_open, foldl_addTo] at filled
    calc (Event.opening name attributes :: (inner ++ .closing name :: events)).foldlM
          Assembly.step assembly
        = inner.foldlM Assembly.step ⟨{ name := name, attributes := attributes } ::
            assembly.openElements, assembly.root⟩ >>=
            (Event.closing name :: events).foldlM Assembly.step :=
          List.foldlM_append
      _ = assembly.attach (.ofParts name attributes inside) >>= events.foldlM Assembly.step := by
          rw [filled]; rfl
      _ = assembly.attach (.ofParts name attributes inside) >>= parts.foldlM Assembly.put :=
          bind_congr ih

/-- What is under construction depends on the open elements and on the elements that are
complete at the top level. -/
theorem Opened.foldlM_step (opened : Opened events frames top) :
    events.foldlM Assembly.step {} = rooted (frames.map Frame.element) (childrenOf top) := by
  induction opened with
  | top contents => rw [contents.foldlM_step, foldlM_put_top]; rfl
  | @within name attributes before inner frames top parts _ contents ih =>
    rw [List.foldlM_append, ih]
    have filled (root : Option Element) :
        (Event.opening name attributes :: inner).foldlM Assembly.step
            ⟨frames.map Frame.element, root⟩ =
          .ok ⟨(Frame.mk name attributes parts :: frames).map Frame.element, root⟩ := by
      refine (contents.foldlM_step _).trans ?_
      rw [foldlM_put_open, foldl_addTo]
      rfl
    rcases childrenOf top with _ | ⟨root, _ | ⟨second, others⟩⟩
    · exact filled none
    · exact filled (some root)
    · rfl

/-! ## The reader stays in the grammar -/

/-- How the event changes the names of the open elements. -/
def Event.Turns (openNames openNames' : List String) : Event → Prop
  | .opening name _ => openNames' = name :: openNames
  | .closing name => openNames = name :: openNames'
  | _ => openNames' = openNames

variable {openNames : List String} {text rest : List Char} {reading : Reading}

theorem turns_of_readStart {content : List Char}
    (h : readStart openNames content rest = .ok reading) :
    reading.event.Turns openNames reading.openNames := by
  unfold readStart at h
  split at h
  · obtain ⟨_, _, same⟩ := exists_of_map_eq_ok h
    cases same
    rfl
  · obtain ⟨_, _, same⟩ := exists_of_map_eq_ok h
    cases same
    rfl

theorem turns_of_readDoctype (h : readDoctype openNames text = .ok reading) :
    reading.event.Turns openNames reading.openNames := by
  obtain ⟨_, _, _, h⟩ := exists_of_splitClosing? h
  split at h
  · split at h <;> cases h
    rfl
  · cases h

theorem turns_of_readEnd {content : List Char} (h : readEnd openNames content rest = .ok reading) :
    reading.event.Turns openNames reading.openNames := by
  unfold readEnd at h
  dsimp only at h
  split at h
  · cases h
  · split at h
    · next same =>
      cases h
      exact same ▸ rfl
    · cases h

/-- A construct that is not a tag leaves the open elements as they are. -/
theorem turns_of_readMarkup (h : readMarkup openNames text = .ok reading) :
    reading.event.Turns openNames reading.openNames := by
  unfold readMarkup at h
  split at h
  · cases h
  · obtain ⟨_, _, _, h⟩ := exists_of_splitClosing? h
    split at h <;> cases h
    rfl
  · obtain ⟨_, _, _, h⟩ := exists_of_splitClosing? h
    split at h <;> cases h
    rfl
  · exact turns_of_readDoctype h
  · exact turns_of_readDoctype h
  · cases h
  · obtain ⟨_, _, _, h⟩ := exists_of_splitClosing? h
    split at h <;> cases h
    rfl
  · split at h
    · cases h
    · exact turns_of_readEnd h
  · split at h
    · cases h
    · exact turns_of_readStart h

theorem turns_of_readText (h : readText openNames text = .ok reading) :
    reading.event.Turns openNames reading.openNames := by
  unfold readText at h
  dsimp only at h
  split at h
  · cases h
  · cases h
    rfl

theorem turns_of_readEvent? (h : readEvent? openNames text = some (.ok reading)) :
    reading.event.Turns openNames reading.openNames := by
  unfold readEvent? at h
  split at h
  · cases h
  · exact turns_of_readMarkup (Option.some.inj h)
  · exact turns_of_readText (Option.some.inj h)

/-- An event that the reader can make next keeps the events so far in the grammar, and
the frames keep the names that the reader holds. -/
theorem Opened.next {event : Event} {openNames' : List String}
    (opened : Opened events frames top)
    (turns : event.Turns (frames.map Frame.name) openNames') :
    ∃ frames' top', Opened (events ++ [event]) frames' top' ∧
      frames'.map Frame.name = openNames' := by
  have content {parts : List Part} (single : Contents [event] parts)
      (kept : openNames' = frames.map Frame.name) :
      ∃ frames' top', Opened (events ++ [event]) frames' top' ∧
        frames'.map Frame.name = openNames' :=
    kept ▸ opened.append single
  cases event with
  | opening name attributes => exact ⟨_, top, .within opened .nil, turns.symm⟩
  | empty name attributes => exact content (.empty .nil) turns
  | text text => exact content (.text .nil) turns
  | characterData text => exact content (.characterData .nil) turns
  | aside => exact content (.aside .nil) turns
  | closing name =>
    cases opened with
    | top contents => cases turns
    | @within opener attributes before inner frames top parts outer contents =>
      -- the end tag has the name of the innermost frame, which becomes a child
      obtain ⟨rfl, rfl⟩ := List.cons.inj turns
      rw [List.append_assoc, List.cons_append]
      exact outer.append (.enclosed contents .nil)

theorem Opened.eventsFrom (opened : Opened events frames top) (fuel : Nat) (text : List Char) :
    ∃ frames' top',
      Opened (events ++ (eventsFrom fuel (frames.map Frame.name) text).1) frames' top' := by
  induction fuel generalizing events frames top text with
  | zero => exact ⟨frames, top, by simpa [Markup.eventsFrom] using opened⟩
  | succ fuel ih =>
    unfold Markup.eventsFrom
    split
    · exact ⟨frames, top, by simpa using opened⟩
    · exact ⟨frames, top, by simpa using opened⟩
    · next reading read =>
      obtain ⟨frames', top', opened', names⟩ := opened.next (turns_of_readEvent? read)
      rw [← names]
      simpa using ih opened' reading.rest

/-- The events of every text are in the grammar, also those in front of a fault. -/
theorem exists_opened (text : List Char) :
    ∃ frames top, Opened (Markup.events text).1 frames top :=
  (Opened.top .nil).eventsFrom text.length text

/-! ## The document -/

/-- What the events without a fault denote, from the frames that are left open and the
elements at the top level. -/
def verdict : List Frame → List Element → Except MarkupError Element
  | _, _ :: second :: _ => .error (.multipleRoots second.name)
  | frame :: _, _ => .error (.unclosed frame.name)
  | [], [root] => .ok root
  | [], [] => .error .noRoot

/-- Why the events form no document: a second element at the top level, or else an
element that is left open, or else no element. -/
inductive Unfit (events : List Event) : MarkupError → Prop
  | secondRoot {frames : List Frame} {top : List Part} {first second : Element}
      {others : List Element} :
      Opened events frames top → childrenOf top = first :: second :: others →
      Unfit events (.multipleRoots second.name)
  | leftOpen {frame : Frame} {outer : List Frame} {top : List Part} :
      Opened events (frame :: outer) top → (childrenOf top).length ≤ 1 →
      Unfit events (.unclosed frame.name)
  | noElement {top : List Part} :
      Contents events top → childrenOf top = [] → Unfit events .noRoot

section Documents

variable {document : String}

theorem Opened.parse_eq (opened : Opened events frames top)
    (sound : Markup.events (Text.dropByteOrderMark document.toList) = (events, none)) :
    Element.parse document = verdict frames (childrenOf top) := by
  unfold Element.parse
  simp only [sound, opened.foldlM_step]
  rcases childrenOf top with _ | ⟨root, _ | ⟨second, others⟩⟩ <;> cases frames <;> rfl

/-- An end tag without an open element is the reader's fault, so it never gets further. -/
theorem parse_ne_unopened (document name : String) :
    Element.parse document ≠ .error (.unopened name) := by
  obtain ⟨frames, top, opened⟩ := exists_opened (Text.dropByteOrderMark document.toList)
  cases failure : (Markup.events (Text.dropByteOrderMark document.toList)).2 with
  | none =>
    rw [opened.parse_eq (Prod.ext rfl failure)]
    unfold verdict
    split <;> intro same <;> cases same
  | some failure' =>
    unfold Element.parse
    simp only [failure, opened.foldlM_step]
    rcases childrenOf top with _ | ⟨root, _ | ⟨second, others⟩⟩ <;> intro same <;> cases same

theorem Opened.exists_contents {root : Element} (opened : Opened events frames top)
    (accepted : verdict frames (childrenOf top) = .ok root) :
    ∃ top', Contents events top' ∧ childrenOf top' = [root] := by
  cases opened with
  | within before inner =>
    unfold verdict at accepted
    split at accepted <;> contradiction
  | top contents =>
    refine ⟨top, contents, ?_⟩
    generalize childrenOf top = elements at accepted
    unfold verdict at accepted
    split at accepted
    · contradiction
    · contradiction
    · exact congrArg (fun element => [element]) (Except.ok.inj accepted)
    · contradiction

theorem Opened.unfit {why : MarkupError} (opened : Opened events frames top)
    (refused : verdict frames (childrenOf top) = .error why) : Unfit events why := by
  generalize same : childrenOf top = elements at refused
  unfold verdict at refused
  split at refused
  · cases refused
    exact .secondRoot opened same
  · next single =>
    cases refused
    refine .leftOpen opened ?_
    rw [same]
    match elements, single with
    | [], _ => exact Nat.zero_le 1
    | [_], _ => exact Nat.le_refl 1
    | first :: second :: others, single => exact absurd rfl (single first second others)
  · cases refused
  · cases refused
    cases opened with
    | top contents => exact .noElement contents same

theorem Unfit.parse_eq {why : MarkupError} (unfit : Unfit events why)
    (sound : Markup.events (Text.dropByteOrderMark document.toList) = (events, none)) :
    Element.parse document = .error why := by
  cases unfit with
  | secondRoot opened several =>
    rw [opened.parse_eq sound, several]
    rfl
  | @leftOpen frame outer top opened few =>
    rw [opened.parse_eq sound]
    match childrenOf top, few with
    | [], _ => rfl
    | [_], _ => rfl
  | noElement contents nothing =>
    rw [(Opened.top contents).parse_eq sound, nothing]
    rfl

/-- A text without faults is a document if and only if its events are the contents with
exactly one element at the top level, and this element is what the text denotes. It is
refused for a second element at the top level, an element that is left open or no
element, in this order, and for nothing else. -/
theorem Element.parse_tree (document : String) :
    (∀ events, Markup.events (Text.dropByteOrderMark document.toList) = (events, none) →
      (∀ element, Element.parse document = .ok element ↔
        ∃ top, Contents events top ∧ childrenOf top = [element]) ∧
      ∀ why, Element.parse document = .error why ↔ Unfit events why) ∧
    ∀ name, Element.parse document ≠ .error (.unopened name) := by
  refine ⟨fun events sound => ?_, parse_ne_unopened document⟩
  obtain ⟨frames, top, opened⟩ := exists_opened (Text.dropByteOrderMark document.toList)
  rw [sound] at opened
  have outcome := opened.parse_eq sound
  refine ⟨fun element => ⟨fun accepted => ?_, ?_⟩, fun why => ⟨fun refused => ?_, ?_⟩⟩
  · exact opened.exists_contents (outcome.symm.trans accepted)
  · rintro ⟨parts, contents, alone⟩
    rw [(Opened.top contents).parse_eq sound, alone]
    rfl
  · exact opened.unfit (outcome.symm.trans refused)
  · exact fun unfit => unfit.parse_eq sound

/-- Two pieces of text and one of character data around a child make up one text; of the
second document, the end is not what is wrong. -/
theorem Element.parse_tree_mixed :
    Element.parse "<?v?><a k=\"1\" j=\"2\">x<b/> y<!--z--><![CDATA[ z ]]></a>\n" =
        .ok ⟨"a", [("k", "1"), ("j", "2")], some "xyz", [⟨"b", [], none, []⟩]⟩ ∧
      Element.parse "<a/>x<b></b><c>" = .error (.multipleRoots "b") := by
  constructor
  · have contents : Contents
        [.aside, .opening "a" [("k", "1"), ("j", "2")], .text "x", .empty "b" [], .text "y",
          .aside, .characterData " z ", .closing "a"] _ :=
      .aside (@Contents.enclosed _ _ [_, _, _, _, _] _ _ _
        (.text (.empty (.text (.aside (.characterData .nil))))) .nil)
    exact (((Element.parse_tree _).1 _ (by decide +kernel)).1 _).mpr
      ⟨_, contents, by decide +kernel⟩
  · have opened : Opened
        ([.empty "a" [], .text "x", .opening "b" [], .closing "b"] ++ [.opening "c" []]) _ _ :=
      .within (.top (.empty (.text (@Contents.enclosed _ _ [] _ _ _ .nil .nil)))) .nil
    exact (((Element.parse_tree _).1 _ (by decide +kernel)).2 _).mpr (.secondRoot opened rfl)

end Documents

end RuleNet.Markup
