import RuleNet.Markup.Document
import RuleNet.Markup.Printer
import RuleNet.Proofs.Markup.Escaping

/-!
# Tags read back

A printed tag is read in two passes that look at quotes in their own ways: the
first one looks for the `>` that ends the tag, the second one cuts what is
inside into a name and attributes. Values are escaped, so only names and keys
can confuse them.

* `splitTag?_of_isEnclosed`: the first pass ends a tag where its inside ends.
* `readTag_render`: the second pass gives back the name and the attributes.
* `readMarkup_opening`, `readMarkup_empty`, `readMarkup_closing`: the three
  kinds of tags.
* `readTag_eq_ok`: what is read from a tag is `Readable`.
-/

namespace RuleNet.Markup

open Text (isLayout byteLength trimEnd trimEnd_eq_self)

/-- Where a run of characters of one kind ends. -/
theorem takeWhile_dropWhile_of_stop {p : Char → Bool} {run : List Char} {c : Char}
    (inside : ∀ d ∈ run, p d = true) (stop : p c = false) (rest : List Char) :
    (run ++ c :: rest).takeWhile p = run ∧ (run ++ c :: rest).dropWhile p = c :: rest := by
  have negative : ¬p c = true := Bool.not_eq_true _ ▸ stop
  rw [List.takeWhile_append_of_pos inside, List.dropWhile_append_of_pos inside,
    List.takeWhile_cons_of_neg negative, List.dropWhile_cons_of_neg negative, List.append_nil]
  exact ⟨rfl, rfl⟩

/-! ## Where a tag ends -/

/-- There is no `>` outside quotes, and no quote is open at the end. -/
def isEnclosed : Option Char → List Char → Bool
  | quote, [] => quote.isNone
  | quote, c :: rest => !(c == '>' && quote.isNone) && isEnclosed (nextQuote quote c) rest

theorem splitTag?_of_isEnclosed {quote : Option Char} {inside : List Char}
    (h : isEnclosed quote inside = true) (rest : List Char) :
    splitTag? quote (inside ++ '>' :: rest) = some (inside, rest) := by
  induction inside generalizing quote with
  | nil =>
    unfold isEnclosed at h
    rw [List.nil_append, splitTag?, h]
    rfl
  | cons c inside ih =>
    unfold isEnclosed at h
    rw [Bool.and_eq_true, Bool.not_eq_true'] at h
    rw [List.cons_append, splitTag?, h.1, ih h.2]
    rfl

theorem isEnclosed_append {quote : Option Char} {before : List Char}
    (h : isEnclosed quote before = true) (text : List Char) :
    isEnclosed quote (before ++ text) = isEnclosed none text := by
  induction before generalizing quote with
  | nil =>
    unfold isEnclosed at h
    rw [List.nil_append, Option.isNone_iff_eq_none.mp h]
  | cons c before ih =>
    unfold isEnclosed at h
    rw [Bool.and_eq_true] at h
    rw [List.cons_append, isEnclosed, h.1, ih h.2, Bool.true_and]

/-- A text without quotes and `>`. -/
theorem isEnclosed_of_not_isSpecial {word : List Char} (h : ∀ c ∈ word, isSpecial c = false) :
    isEnclosed none word = true := by
  induction word with
  | nil => rfl
  | cons c word ih =>
    have here := h c List.mem_cons_self
    have next : nextQuote none c = none := by
      simp only [isSpecial, Bool.or_eq_false_iff] at here
      simp only [nextQuote, here, Bool.or_self, Bool.false_eq_true, if_false]
    have close : (c == '>') = false := by
      simp only [isSpecial, Bool.or_eq_false_iff] at here
      exact here.1.1.1.2
    rw [isEnclosed, next, close, ih fun c later => h c (List.mem_cons_of_mem _ later)]
    rfl

/-- A text between quotes. -/
theorem isEnclosed_quoted {text : List Char} (h : '"' ∉ text) :
    isEnclosed none ('"' :: text ++ ['"']) = true := by
  have within : isEnclosed (some '"') (text ++ ['"']) = true := by
    induction text with
    | nil => rfl
    | cons c text ih =>
      rw [List.mem_cons, not_or] at h
      have next : nextQuote (some '"') c = some '"' := by
        have apart : (c == '"') = false := beq_false_of_ne fun same => h.1 same.symm
        rw [nextQuote, apart]
        rfl
      rw [List.cons_append, isEnclosed, next, ih h.2, Option.isNone_some, Bool.and_false]
      rfl
  exact within

/-! ## Attributes -/

/-- A key that reads back: it does not start with layout, and behind its first
character there is neither layout nor an equals sign. -/
def isKey : List Char → Bool
  | [] => false
  | c :: rest => !isLayout c && rest.all fun c => !(c == '=' || isLayout c)

theorem splitKey_of_isKey {key : List Char} (h : isKey key = true) (rest : List Char) :
    splitKey (key ++ '=' :: rest) = (key, '=' :: rest) := by
  cases key with
  | nil => cases h
  | cons c key =>
    unfold isKey at h
    rw [Bool.and_eq_true, List.all_eq_true] at h
    obtain ⟨name, after⟩ := takeWhile_dropWhile_of_stop h.2 (c := '=') rfl rest
    rw [List.cons_append, splitKey, name, after]

theorem readValue_quoted {value : List Char} (h : '"' ∉ value) (total : Nat) (rest : List Char) :
    readValue total ('"' :: value ++ '"' :: rest) = .ok (value, rest) := by
  have other : ∀ c ∈ value, (c != '"') = true := by
    intro c member
    exact bne_iff_ne.mpr fun same => h (same ▸ member)
  obtain ⟨content, after⟩ := takeWhile_dropWhile_of_stop other (c := '"') rfl rest
  unfold readValue
  rw [List.cons_append, List.dropWhile_cons_of_neg (by decide)]
  dsimp only
  rw [if_pos (by decide), content, after]

theorem readAttribute_render {key value : List Char} (shape : isKey key = true)
    (plain : '"' ∉ value) {seen : List (List Char × Nat)} (new : seen.lookup key = none)
    (total : Nat)
    {text rest : List Char} (written : text = key ++ '=' :: '"' :: value ++ '"' :: rest) :
    readAttribute total seen text = .ok (⟨total - byteLength text, key, value⟩, rest) := by
  have split : splitKey text = (key, '=' :: ('"' :: value ++ '"' :: rest)) := by
    rw [written, List.append_assoc]
    exact splitKey_of_isKey shape _
  unfold readAttribute
  rw [split]
  dsimp only
  rw [List.dropWhile_cons_of_neg (by decide), new]
  show (readValue total ('"' :: value ++ '"' :: rest)).map _ = _
  rw [readValue_quoted plain]
  rfl

/-- A key that reads back starts with no layout. -/
theorem dropWhile_of_isKey {key : List Char} (h : isKey key = true) (rest : List Char) :
    (key ++ rest).dropWhile isLayout = key ++ rest ∧ key ++ rest ≠ [] := by
  cases key with
  | nil => cases h
  | cons c key =>
    unfold isKey at h
    rw [Bool.and_eq_true, Bool.not_eq_true'] at h
    rw [List.cons_append, List.dropWhile_cons_of_neg (by rw [h.1]; decide)]
    exact ⟨rfl, List.cons_ne_nil _ _⟩

/-- Attributes with keys that read back and differ from each other read back. -/
theorem readAttributesFrom_render {attributes : List (String × String)}
    (keys : ∀ pair ∈ attributes, isKey pair.1.toList = true)
    (distinct : (attributes.map Prod.fst).Nodup) (total : Nat) {fuel : Nat}
    (enough : attributes.length ≤ fuel) {seen : List (List Char × Nat)}
    (new : ∀ pair ∈ attributes, seen.lookup pair.1.toList = none) :
    readAttributesFrom total fuel seen (Element.renderAttributes attributes) = .ok attributes := by
  induction attributes generalizing fuel seen with
  | nil => cases fuel <;> rfl
  | cons pair rest ih =>
    obtain ⟨key, value⟩ := pair
    cases fuel with
    | zero => cases enough
    | succ fuel =>
      have shape : isKey key.toList = true := keys _ List.mem_cons_self
      have plain : '"' ∉ escape value.toList := not_mem_escape (by decide) (by decide) _
      have written : (Element.renderAttributes ((key, value) :: rest)).dropWhile isLayout =
          key.toList ++ '=' :: '"' :: escape value.toList ++ '"' :: Element.renderAttributes rest ∧
          key.toList ++ '=' :: '"' :: escape value.toList ++ '"' :: Element.renderAttributes rest ≠
            [] := by
        have same : Element.renderAttributes ((key, value) :: rest) =
            ' ' :: (key.toList ++ ('=' :: '"' :: escape value.toList ++
              '"' :: Element.renderAttributes rest)) := by
          simp [Element.renderAttributes]
        rw [same, List.dropWhile_cons_of_pos (by decide), List.append_assoc]
        exact dropWhile_of_isKey shape _
      obtain ⟨c, tail, cons⟩ := List.exists_cons_of_ne_nil written.2
      rw [readAttributesFrom, written.1, cons]
      dsimp only
      rw [readAttribute_render shape plain (new _ List.mem_cons_self) total cons.symm]
      show (do
        let value ← (unescape (escape value.toList)).mapError AttributeFault.entity
        let others ← readAttributesFrom total fuel
          ((key.toList, total - byteLength (c :: tail)) :: seen) (Element.renderAttributes rest)
        return (String.ofList key.toList, String.ofList value) :: others) = _
      rw [List.map_cons, List.nodup_cons] at distinct
      -- the keys behind this one differ from it, so they are still new once it has been seen
      have others : ∀ pair ∈ rest,
          ((key.toList, total - byteLength (c :: tail)) :: seen).lookup pair.1.toList = none := by
        intro pair later
        have apart : (pair.1.toList == key.toList) = false := by
          refine beq_false_of_ne fun same => distinct.1 ?_
          have listed : pair.1 ∈ rest.map Prod.fst := List.mem_map_of_mem later
          exact String.toList_inj.mp same ▸ listed
        rw [List.lookup_cons, apart]
        exact new pair (List.mem_cons_of_mem _ later)
      rw [unescape_escape, ih (fun pair later => keys pair (List.mem_cons_of_mem _ later))
        distinct.2 (Nat.le_of_succ_le_succ enough) others]
      show Except.ok ((String.ofList key.toList, String.ofList value.toList) :: rest) = _
      rw [String.ofList_toList, String.ofList_toList]

/-! ## Names and attributes -/

/-- The name and the attributes of a tag such as the reader makes them: no
layout in the name, no mark of another construct at its start, and keys that
read back and differ from each other. -/
structure Readable (name : String) (attributes : List (String × String)) : Prop where
  plain : ∀ c ∈ name.toList, isLayout c = false
  head : ∀ c, name.toList.head? = some c → c ≠ '!' ∧ c ≠ '?' ∧ c ≠ '/'
  keys : ∀ pair ∈ attributes, isKey pair.1.toList = true
  distinct : (attributes.map Prod.fst).Nodup

/-- The text of a tag after `<`. -/
def inside (name : String) (attributes : List (String × String)) : List Char :=
  name.toList ++ Element.renderAttributes attributes

theorem length_le_renderAttributes (attributes : List (String × String)) :
    attributes.length ≤ (Element.renderAttributes attributes).length := by
  induction attributes with
  | nil => exact Nat.le_refl _
  | cons pair rest ih =>
    simp only [Element.renderAttributes, List.length_cons, List.length_append]
    omega

variable {name : String} {attributes : List (String × String)}

theorem readTag_render (readable : Readable name attributes) (rest : List Char) :
    readTag (inside name attributes) rest = .ok (name, attributes) := by
  have plain : ∀ c ∈ name.toList, (!isLayout c) = true := by
    intro c member
    rw [readable.plain c member]
    rfl
  have cut : (inside name attributes).takeWhile (fun c => !isLayout c) = name.toList ∧
      (inside name attributes).dropWhile (fun c => !isLayout c) =
        Element.renderAttributes attributes := by
    unfold inside
    rw [List.takeWhile_append_of_pos plain, List.dropWhile_append_of_pos plain]
    cases attributes with
    | nil => exact ⟨List.append_nil _, rfl⟩
    | cons pair others =>
      obtain ⟨key, value⟩ := pair
      exact ⟨List.append_nil _, rfl⟩
  unfold readTag
  dsimp only
  rw [cut.1, cut.2, readAttributes,
    readAttributesFrom_render readable.keys readable.distinct _
      (length_le_renderAttributes attributes) fun _ _ => rfl]
  dsimp only
  rw [String.ofList_toList]

theorem renderAttributes_cons (key value : String) (rest : List (String × String)) :
    Element.renderAttributes ((key, value) :: rest) =
      ' ' :: (key.toList ++ ['=']) ++
        ('"' :: escape value.toList ++ ['"'] ++ Element.renderAttributes rest) := by
  simp [Element.renderAttributes]

/-- Attributes whose keys hold no quotes and no `>` cannot be cut short. -/
theorem isEnclosed_renderAttributes
    (keys : ∀ pair ∈ attributes, ∀ c ∈ pair.1.toList, isSpecial c = false) :
    isEnclosed none (Element.renderAttributes attributes) = true := by
  induction attributes with
  | nil => rfl
  | cons pair rest ih =>
    obtain ⟨key, value⟩ := pair
    have before : isEnclosed none (' ' :: (key.toList ++ ['='])) = true := by
      refine isEnclosed_of_not_isSpecial fun c member => ?_
      rcases List.mem_cons.mp member with rfl | member
      · rfl
      rcases List.mem_append.mp member with member | member
      · exact keys _ List.mem_cons_self c member
      · rw [List.mem_singleton.mp member]
        rfl
    have quoted := isEnclosed_quoted (not_mem_escape (c := '"') rfl (by decide) value.toList)
    rw [renderAttributes_cons, isEnclosed_append before, isEnclosed_append quoted]
    exact ih fun pair later => keys pair (List.mem_cons_of_mem _ later)

theorem getLast?_renderAttributes {c : Char}
    (last : (Element.renderAttributes attributes).getLast? = some c) : c = '"' := by
  induction attributes with
  | nil => cases last
  | cons pair rest ih =>
    obtain ⟨key, value⟩ := pair
    rw [renderAttributes_cons, List.getLast?_append, List.getLast?_append] at last
    cases behind : (Element.renderAttributes rest).getLast? with
    | some d =>
      rw [behind] at last ih
      exact ih last
    | none =>
      rw [behind, List.getLast?_append] at last
      exact (Option.some.inj last).symm

/-! ## Tags behind `<` -/

/-- A character that starts no declaration, instruction or end tag starts a tag. -/
theorem readMarkup_of_head {c : Char} (other : c ≠ '!' ∧ c ≠ '?' ∧ c ≠ '/')
    {text content rest : List Char} (split : splitTag? none (c :: text) = some (content, rest))
    (openNames : List String) :
    readMarkup openNames (c :: text) = readStart openNames content rest := by
  unfold readMarkup
  split
  case h_1 nothing => cases nothing
  case h_9 => rw [split]
  case h_8 slash => exact absurd (List.cons.inj slash).1 other.2.2
  case h_7 question => exact absurd (List.cons.inj question).1 other.2.1
  all_goals next bang => exact absurd (List.cons.inj bang).1 other.1

/-- A text that starts with the inside of a tag starts like a tag. -/
theorem Readable.exists_head (readable : Readable name attributes) (tail : List Char)
    (mark : inside name attributes = [] →
      ∃ c rest, tail = c :: rest ∧ c ≠ '!' ∧ c ≠ '?' ∧ c ≠ '/') :
    ∃ c rest, inside name attributes ++ tail = c :: rest ∧ c ≠ '!' ∧ c ≠ '?' ∧ c ≠ '/' := by
  cases content : inside name attributes with
  | nil => exact mark content
  | cons c rest =>
    refine ⟨c, rest ++ tail, rfl, ?_⟩
    cases letters : name.toList with
    | cons first _ =>
      have same : first = c := by
        unfold inside at content
        rw [letters] at content
        exact (List.cons.inj content).1
      exact same ▸ readable.head first (by rw [letters]; rfl)
    | nil =>
      unfold inside at content
      rw [letters] at content
      cases attributes with
      | nil => cases content
      | cons =>
        rw [← (List.cons.inj content).1]
        decide

/-- A start tag reads back. -/
theorem readMarkup_opening (readable : Readable name attributes)
    (enclosed : isEnclosed none (inside name attributes) = true)
    (last : (inside name attributes).getLast? ≠ some '/') (openNames : List String)
    (rest : List Char) :
    readMarkup openNames (inside name attributes ++ '>' :: rest) =
      .ok ⟨.opening name attributes, name :: openNames, rest⟩ := by
  obtain ⟨c, tail, cons, other⟩ :=
    readable.exists_head ('>' :: rest) fun _ => ⟨'>', rest, rfl, by decide⟩
  have split := splitTag?_of_isEnclosed enclosed rest
  rw [cons] at split ⊢
  rw [readMarkup_of_head other split, readStart, if_neg last, readTag_render readable]
  rfl

/-- A tag that is start and end in one reads back. -/
theorem readMarkup_empty (readable : Readable name attributes)
    (enclosed : isEnclosed none (inside name attributes) = true)
    (content : inside name attributes ≠ []) (openNames : List String) (rest : List Char) :
    readMarkup openNames (inside name attributes ++ "/>".toList ++ rest) =
      .ok ⟨.empty name attributes, openNames, rest⟩ := by
  obtain ⟨c, tail, cons, other⟩ :=
    readable.exists_head ('/' :: '>' :: rest) fun empty => absurd empty content
  have slashed : isEnclosed none (inside name attributes ++ ['/']) = true :=
    isEnclosed_append enclosed ['/']
  have split := splitTag?_of_isEnclosed slashed rest
  have same : inside name attributes ++ "/>".toList ++ rest =
      inside name attributes ++ ['/'] ++ '>' :: rest := by
    rw [List.append_assoc, List.append_assoc]
    rfl
  rw [same]
  rw [List.append_assoc, List.singleton_append, cons] at split ⊢
  rw [readMarkup_of_head other split, readStart, if_pos (List.getLast?_concat ..),
    List.dropLast_concat, readTag_render readable]
  rfl

theorem endName_of_plain (plain : ∀ c ∈ name.toList, isLayout c = false) :
    endName name.toList = name := by
  have trimmed : trimEnd isLayout name.toList = name.toList :=
    trimEnd_eq_self fun c last => plain c (List.mem_of_getLast? last)
  unfold endName
  rw [trimmed, ite_self, String.ofList_toList]

/-- An end tag reads back. -/
theorem readMarkup_closing (plain : ∀ c ∈ name.toList, isLayout c = false)
    (enclosed : isEnclosed none name.toList = true) (openNames : List String) (rest : List Char) :
    readMarkup (name :: openNames) ('/' :: name.toList ++ '>' :: rest) =
      .ok ⟨.closing name, openNames, rest⟩ := by
  have slashed : isEnclosed none ('/' :: name.toList) = true := enclosed
  have split := splitTag?_of_isEnclosed slashed rest
  rw [List.cons_append] at split ⊢
  unfold readMarkup
  rw [split]
  show readEnd (name :: openNames) name.toList rest = _
  unfold readEnd
  dsimp only
  rw [endName_of_plain plain, if_pos rfl]

/-! ## What is read is readable -/

section Results

variable {ε α β : Type}

theorem exists_of_bind_eq_ok {x : Except ε α} {f : α → Except ε β} {b : β}
    (h : (x >>= f) = .ok b) : ∃ a, x = .ok a ∧ f a = .ok b := by
  cases x with
  | error why => cases h
  | ok a => exact ⟨a, rfl, h⟩

theorem exists_of_map_eq_ok {x : Except ε α} {f : α → β} {b : β} (h : x.map f = .ok b) :
    ∃ a, x = .ok a ∧ f a = b := by
  cases x with
  | error why => cases h
  | ok a =>
    cases h
    exact ⟨a, rfl, rfl⟩

end Results

theorem isKey_splitKey {c : Char} (first : isLayout c = false) (rest : List Char) :
    isKey (splitKey (c :: rest)).1 = true := by
  unfold splitKey isKey
  dsimp only
  rw [first, List.all_takeWhile]
  rfl

theorem readAttribute_eq_ok {total : Nat} {seen : List (List Char × Nat)} {text after : List Char}
    {raw : RawAttribute} (h : readAttribute total seen text = .ok (raw, after)) :
    raw.key = (splitKey text).1 ∧ seen.lookup raw.key = none := by
  unfold readAttribute at h
  dsimp only at h
  split at h
  · split at h
    · cases h
    · next new =>
      obtain ⟨_, _, same⟩ := exists_of_map_eq_ok h
      cases same
      exact ⟨rfl, new⟩
  · cases h

/-- Every key that is read is one that reads back, and none of them is read twice. -/
theorem readAttributesFrom_eq_ok {total fuel : Nat} {seen : List (List Char × Nat)}
    {text : List Char} {attributes : List (String × String)}
    (h : readAttributesFrom total fuel seen text = .ok attributes) :
    (∀ pair ∈ attributes, isKey pair.1.toList = true ∧ seen.lookup pair.1.toList = none) ∧
      (attributes.map Prod.fst).Nodup := by
  induction fuel generalizing seen text attributes with
  | zero =>
    cases h
    exact ⟨fun _ none => absurd none List.not_mem_nil, List.nodup_nil⟩
  | succ fuel ih =>
    unfold readAttributesFrom at h
    split at h
    · cases h
      exact ⟨fun _ none => absurd none List.not_mem_nil, List.nodup_nil⟩
    next c rest start =>
    have first : isLayout c = false := by
      have kept := List.head?_dropWhile_not isLayout text
      rw [start] at kept
      exact kept
    obtain ⟨⟨raw, after⟩, front, h⟩ := exists_of_bind_eq_ok h
    obtain ⟨value, -, h⟩ := exists_of_bind_eq_ok h
    obtain ⟨others, later, h⟩ := exists_of_bind_eq_ok h
    cases h
    obtain ⟨key, new⟩ := readAttribute_eq_ok front
    obtain ⟨shaped, distinct⟩ := ih later
    have apart : ∀ pair ∈ others, (pair.1.toList == raw.key) = false ∧
        seen.lookup pair.1.toList = none := by
      intro pair member
      have missing := (shaped pair member).2
      rw [List.lookup_cons] at missing
      cases same : pair.1.toList == raw.key with
      | true =>
        rw [same] at missing
        cases missing
      | false =>
        rw [same] at missing
        exact ⟨rfl, missing⟩
    constructor
    · intro pair member
      cases member with
      | head =>
        rw [String.toList_ofList, key]
        exact ⟨isKey_splitKey first rest, key ▸ new⟩
      | tail _ member => exact ⟨(shaped pair member).1, (apart pair member).2⟩
    · refine List.nodup_cons.mpr ⟨?_, distinct⟩
      intro again
      obtain ⟨pair, member, same⟩ := List.mem_map.mp again
      have differs := (apart pair member).1
      rw [same, String.toList_ofList, beq_self_eq_true] at differs
      cases differs

/-- A tag that is read can be read back, if nothing else starts like it. -/
theorem readTag_eq_ok {content rest : List Char} (h : readTag content rest = .ok (name, attributes))
    (other : ∀ c, content.head? = some c → c ≠ '!' ∧ c ≠ '?' ∧ c ≠ '/') :
    Readable name attributes := by
  unfold readTag at h
  dsimp only at h
  split at h
  · cases h
  next read =>
  cases h
  obtain ⟨shaped, distinct⟩ := readAttributesFrom_eq_ok read
  refine ⟨?_, ?_, fun pair member => (shaped pair member).1, distinct⟩
  · intro c member
    rw [String.toList_ofList] at member
    have kept := List.all_eq_true.mp List.all_takeWhile c member
    exact Bool.not_eq_true' _ ▸ kept
  · intro c first
    rw [String.toList_ofList] at first
    refine other c ?_
    rw [← List.takeWhile_append_dropWhile (p := fun c => !isLayout c) (l := content),
      List.head?_append, first]
    rfl

end RuleNet.Markup
