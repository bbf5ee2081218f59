import RuleNet.Markup.Document
import RuleNet.Proofs.Markup.Tags

/-!
# Reading event by event

The reader takes one event after the other off the front of the text. Every
event takes at least one character and every tag that is read can be read back
(`readEvent?_eq_ok`), so the fuel of `eventsFrom` is never what ends a text
(`Reads.events_eq`).

* `reads_tag`: a construct of markup is one event, whatever layout is in front of it.
* `reads_text`: a piece of text in front of markup is one event, its trimmed
  content, or no event at all if it is nothing but layout.
-/

namespace RuleNet.Markup

open Text (isLayout trim trimEnd Tight)

/-! ## What an event is -/

/-- The tag of the event, if it is one with attributes, can be read back. -/
def Event.Shaped : Event → Prop
  | .opening name attributes => Readable name attributes
  | .empty name attributes => Readable name attributes
  | _ => True

theorem splitTag?_shorter {quote : Option Char} {text inside rest : List Char}
    (h : splitTag? quote text = some (inside, rest)) : rest.length < text.length := by
  rw [append_of_splitTag? h, List.length_append, List.length_cons]
  omega

variable {openNames openNames' : List String} {text rest : List Char} {reading : Reading}

theorem readStart_eq_ok {content : List Char} (h : readStart openNames content rest = .ok reading)
    (other : ∀ c, content.head? = some c → c ≠ '!' ∧ c ≠ '?' ∧ c ≠ '/') :
    reading.event.Shaped ∧ reading.rest = rest := by
  unfold readStart at h
  split at h
  · obtain ⟨⟨name, attributes⟩, read, same⟩ := exists_of_map_eq_ok h
    cases same
    refine ⟨readTag_eq_ok read fun c first => other c ?_, rfl⟩
    cases content with
    | nil => cases first
    | cons d content =>
      cases content with
      | nil => cases first
      | cons => exact first
  · obtain ⟨⟨name, attributes⟩, read, same⟩ := exists_of_map_eq_ok h
    cases same
    exact ⟨readTag_eq_ok read other, rfl⟩

theorem readEnd_eq_ok {content : List Char} (h : readEnd openNames content rest = .ok reading) :
    reading.event.Shaped ∧ reading.rest = rest := by
  unfold readEnd at h
  dsimp only at h
  split at h
  · cases h
  · split at h
    · cases h
      exact ⟨trivial, rfl⟩
    · cases h

/-- A construct that is not a tag is read from what stands before the `>` that ends it. -/
theorem exists_of_splitClosing? {closes : List Char → Bool} {fault : Failure}
    {found : List Char → List Char → Except Failure Reading}
    (h : (match splitClosing? closes [] text with
      | none => Except.error fault
      | some (inside, rest) => found inside rest) = .ok reading) :
    ∃ inside rest, rest.length < text.length ∧ found inside rest = .ok reading := by
  split at h
  · cases h
  · next inside rest split =>
    have same : text = inside ++ '>' :: rest := append_of_splitClosing? split
    refine ⟨inside, rest, ?_, h⟩
    rw [same, List.length_append, List.length_cons]
    omega

theorem readCharacterData_eq_ok (h : readCharacterData openNames text = .ok reading) :
    reading.event.Shaped ∧ reading.rest.length < text.length := by
  obtain ⟨inside, rest, shorter, h⟩ := exists_of_splitClosing? h
  split at h <;> cases h
  exact ⟨trivial, shorter⟩

theorem readComment_eq_ok (h : readComment openNames text = .ok reading) :
    reading.event.Shaped ∧ reading.rest.length < text.length := by
  obtain ⟨inside, rest, shorter, h⟩ := exists_of_splitClosing? h
  split at h <;> cases h
  exact ⟨trivial, shorter⟩

theorem readDoctype_eq_ok (h : readDoctype openNames text = .ok reading) :
    reading.event.Shaped ∧ reading.rest.length < text.length := by
  obtain ⟨inside, rest, shorter, h⟩ := exists_of_splitClosing? h
  split at h
  · split at h <;> cases h
    exact ⟨trivial, shorter⟩
  · cases h

theorem readInstruction_eq_ok (h : readInstruction openNames text = .ok reading) :
    reading.event.Shaped ∧ reading.rest.length < text.length := by
  obtain ⟨inside, rest, shorter, h⟩ := exists_of_splitClosing? h
  split at h <;> cases h
  exact ⟨trivial, shorter⟩

theorem readMarkup_eq_ok (h : readMarkup openNames text = .ok reading) :
    reading.event.Shaped ∧ reading.rest.length < text.length := by
  unfold readMarkup at h
  split at h
  · cases h
  · exact readCharacterData_eq_ok h
  · exact readComment_eq_ok h
  · exact readDoctype_eq_ok h
  · exact readDoctype_eq_ok h
  · cases h
  · exact readInstruction_eq_ok h
  · split at h
    · cases h
    · next split =>
      obtain ⟨shaped, same⟩ := readEnd_eq_ok h
      exact ⟨shaped, same ▸ splitTag?_shorter split⟩
  · next noBang noQuestion noSlash =>
    split at h
    · cases h
    · next inside rest split =>
      have other : ∀ c, inside.head? = some c → c ≠ '!' ∧ c ≠ '?' ∧ c ≠ '/' := by
        intro c first
        obtain ⟨tail, cons⟩ := List.head?_eq_some_iff.mp first
        have whole : text = c :: (tail ++ '>' :: rest) := by
          rw [append_of_splitTag? split, cons]
          rfl
        refine ⟨?_, ?_, ?_⟩
        · rintro rfl
          exact noBang _ whole
        · rintro rfl
          exact noQuestion _ whole
        · rintro rfl
          exact noSlash _ whole
      obtain ⟨shaped, same⟩ := readStart_eq_ok h other
      exact ⟨shaped, same ▸ splitTag?_shorter split⟩

theorem readText_eq_ok (h : readText openNames text = .ok reading)
    (other : ∀ c, text.head? = some c → c ≠ '<') :
    reading.event.Shaped ∧ (text ≠ [] → reading.rest.length < text.length) := by
  unfold readText at h
  dsimp only at h
  split at h
  · cases h
  · cases h
    refine ⟨trivial, fun content => ?_⟩
    obtain ⟨c, tail, rfl⟩ := List.exists_cons_of_ne_nil content
    have first : (c != '<') = true := bne_iff_ne.mpr (other c rfl)
    have kept : (c :: tail).dropWhile (· != '<') = tail.dropWhile (· != '<') :=
      List.dropWhile_cons_of_pos first
    dsimp only
    rw [kept]
    exact Nat.lt_succ_of_le (List.dropWhile_suffix _).length_le

/-- Every event takes a character, and every tag that is read can be read back. -/
theorem readEvent?_eq_ok (h : readEvent? openNames text = some (.ok reading)) :
    reading.event.Shaped ∧ reading.rest.length < text.length := by
  have short : (text.dropWhile isLayout).length ≤ text.length := (List.dropWhile_suffix _).length_le
  unfold readEvent? at h
  split at h
  · cases h
  · next rest start =>
    obtain ⟨shaped, less⟩ := readMarkup_eq_ok (Option.some.inj h)
    rw [start, List.length_cons] at short
    exact ⟨shaped, by omega⟩
  · next content markup =>
    obtain ⟨shaped, less⟩ := readText_eq_ok (Option.some.inj h) (by
      rintro c first rfl
      obtain ⟨tail, cons⟩ := List.head?_eq_some_iff.mp first
      exact markup tail cons)
    exact ⟨shaped, Nat.lt_of_lt_of_le (less content) short⟩

/-! ## Runs of the reader -/

/-- With the elements of the first names open, the reader makes the events of
the first text and has the second one left, with the second names open. -/
inductive Reads : List String → List Char → List Event → List String → List Char → Prop
  | refl {openNames : List String} {text : List Char} : Reads openNames text [] openNames text
  | step {openNames openNames' : List String} {text rest : List Char} {reading : Reading}
      {events : List Event} (next : readEvent? openNames text = some (.ok reading))
      (later : Reads reading.openNames reading.rest events openNames' rest) :
      Reads openNames text (reading.event :: events) openNames' rest

namespace Reads

variable {events events' : List Event} {openNames'' : List String} {rest' : List Char}

theorem single (next : readEvent? openNames text = some (.ok reading)) :
    Reads openNames text [reading.event] reading.openNames reading.rest :=
  .step next .refl

theorem trans (first : Reads openNames text events openNames' rest)
    (second : Reads openNames' rest events' openNames'' rest') :
    Reads openNames text (events ++ events') openNames'' rest' := by
  induction first with
  | refl => exact second
  | step next _ ih => exact .step next (ih second)

/-- What a run makes are the events of the text, if nothing but layout is left. -/
theorem eventsFrom_eq (run : Reads openNames text events openNames' rest)
    (done : readEvent? openNames' rest = none) {fuel : Nat} (enough : text.length ≤ fuel) :
    eventsFrom fuel openNames text = (events, none) := by
  induction run generalizing fuel with
  | refl =>
    cases fuel with
    | zero => rfl
    | succ fuel => rw [eventsFrom, done]
  | step next _ ih =>
    have less := (readEvent?_eq_ok next).2
    cases fuel with
    | zero => omega
    | succ fuel =>
      rw [eventsFrom, next]
      dsimp only
      rw [ih done (by omega)]

theorem events_eq (run : Reads [] text events openNames' rest)
    (done : readEvent? openNames' rest = none) : Markup.events text = (events, none) :=
  run.eventsFrom_eq done (Nat.le_refl _)

end Reads

/-! ## Layout, tags and texts -/

/-- The text is layout only. -/
def IsGap (gap : List Char) : Prop := ∀ c ∈ gap, isLayout c = true

instance (gap : List Char) : Decidable (IsGap gap) :=
  decidable_of_iff (gap.all isLayout = true) List.all_eq_true

theorem IsGap.append {gap gap' : List Char} (first : IsGap gap) (second : IsGap gap') :
    IsGap (gap ++ gap') := by
  intro c member
  rcases List.mem_append.mp member with member | member
  · exact first c member
  · exact second c member

variable {gap : List Char}

/-- Layout in front of an event does not matter. -/
theorem readEvent?_append (blank : IsGap gap) (openNames : List String) (text : List Char) :
    readEvent? openNames (gap ++ text) = readEvent? openNames text := by
  unfold readEvent?
  rw [List.dropWhile_append_of_pos blank]

/-- Nothing follows when only layout is left. -/
theorem readEvent?_gap (blank : IsGap gap) (openNames : List String) :
    readEvent? openNames gap = none := by
  rw [← List.append_nil gap, readEvent?_append blank]
  rfl

theorem reads_tag (blank : IsGap gap) (tag : readMarkup openNames text = .ok reading) :
    Reads openNames (gap ++ '<' :: text) [reading.event] reading.openNames reading.rest := by
  refine Reads.single ?_
  rw [readEvent?_append blank]
  unfold readEvent?
  rw [List.dropWhile_cons_of_neg (by decide)]
  exact congrArg some tag

/-- A text that does not start or end with layout is read as it is, up to the next tag. -/
theorem readText_escape {inner gap' : List Char} (tight : Tight isLayout inner)
    (blank : IsGap gap') (openNames : List String) (rest : List Char) :
    readText openNames (escape inner ++ gap' ++ '<' :: rest) =
      .ok ⟨.text (String.ofList inner), openNames, '<' :: rest⟩ := by
  have plain : ∀ c ∈ escape inner ++ gap', (c != '<') = true := by
    intro c member
    refine bne_iff_ne.mpr ?_
    rintro rfl
    rcases List.mem_append.mp member with member | member
    · exact not_mem_escape (by decide) (by decide) inner member
    · exact absurd (blank _ member) (by decide)
  obtain ⟨content, after⟩ := takeWhile_dropWhile_of_stop plain (c := '<') rfl rest
  have trimmed : trimEnd isLayout (escape inner ++ gap') = escape inner := by
    rw [Text.trimEnd_append_of_pos blank, Text.trimEnd_eq_self (tight_escape tight).last]
  unfold readText
  dsimp only
  rw [content, after, trimmed, unescape_escape]

theorem readEvent?_escape {inner : List Char} (tight : Tight isLayout inner) (content : inner ≠ [])
    (openNames : List String) (rest : List Char) :
    readEvent? openNames (escape inner ++ rest) =
      some (readText openNames (escape inner ++ rest)) := by
  cases written : escape inner with
  | nil =>
    obtain ⟨c, tail, rfl⟩ := List.exists_cons_of_ne_nil content
    rw [escape, List.flatMap_cons, List.append_eq_nil_iff] at written
    exact absurd written.1 (escapeChar_ne_nil c)
  | cons d more =>
    have layout : isLayout d = false := (tight_escape tight).head d (by rw [written]; rfl)
    have plain : d ≠ '<' := by
      rintro rfl
      exact not_mem_escape (by decide) (by decide) inner (written ▸ List.mem_cons_self)
    unfold readEvent?
    rw [List.cons_append, List.dropWhile_cons_of_neg (by rw [layout]; decide)]
    split
    · next none => cases none
    · next markup => exact absurd (List.cons.inj markup).1 plain
    · rfl

/-- What is read where a text is written: its trimmed content, or nothing. -/
def textEvents (text : List Char) : List Event :=
  if trim isLayout text = [] then [] else [.text (String.ofList (trim isLayout text))]

/-- A text in front of a tag is read as its trimmed content, whatever layout is around it. -/
theorem reads_text {gap' : List Char} (before : IsGap gap) (after : IsGap gap') (text : List Char)
    (openNames : List String) (rest : List Char) :
    ∃ gap'', IsGap gap'' ∧ Reads openNames (gap ++ (escape text ++ (gap' ++ '<' :: rest)))
      (textEvents text) openNames (gap'' ++ '<' :: rest) := by
  obtain ⟨front, back, blank, blank', same⟩ := Text.exists_trim isLayout text
  have tight := Text.tight_trim isLayout text
  unfold textEvents
  generalize trim isLayout text = inner at same tight
  -- layout is not escaped, so the layout at the ends of the text joins the one around it
  have written : gap ++ (escape text ++ (gap' ++ '<' :: rest)) =
      (gap ++ front) ++ (escape inner ++ (back ++ gap') ++ '<' :: rest) := by
    rw [same, escape_append, escape_append, escape_of_blank blank, escape_of_blank blank']
    simp only [List.append_assoc]
  rw [written]
  by_cases nothing : inner = []
  · subst nothing
    refine ⟨(gap ++ front) ++ (back ++ gap'),
      (before.append blank).append (IsGap.append blank' after), ?_⟩
    rw [if_pos rfl, List.append_assoc (gap ++ front)]
    exact Reads.refl
  · refine ⟨[], fun _ none => absurd none List.not_mem_nil, ?_⟩
    rw [if_neg nothing]
    have first := readEvent?_escape tight nothing openNames ((back ++ gap') ++ '<' :: rest)
    rw [← List.append_assoc, readText_escape tight (IsGap.append blank' after),
      ← readEvent?_append (before.append blank)] at first
    exact Reads.single first

end RuleNet.Markup
