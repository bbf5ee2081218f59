/-!
# Where a construct of markup ends

Every construct that starts with `<` ends with some `>`, and each kind of
construct has its own rule for which one. Each function here splits the text
after `<` at that `>`: what stands before it, and what follows it. Nothing is
lost (`append_of_splitTag?`, `append_of_splitClosing?`).
-/

namespace RuleNet.Markup

/-! ## Tags -/

/-- The quote that is open after a character. -/
def nextQuote : Option Char → Char → Option Char
  | none, c => if c == '"' || c == '\'' then some c else none
  | some quote, c => if c == quote then none else some quote

/-- A tag ends at the first `>` outside quotes. -/
def splitTag? : Option Char → List Char → Option (List Char × List Char)
  | _, [] => none
  | quote, c :: rest =>
      if c == '>' && quote.isNone then some ([], rest)
      else (splitTag? (nextQuote quote c) rest).map fun (inside, after) => (c :: inside, after)

theorem append_of_splitTag? {quote : Option Char} {text inside after : List Char}
    (h : splitTag? quote text = some (inside, after)) : text = inside ++ '>' :: after := by
  induction text generalizing quote inside with
  | nil => simp [splitTag?] at h
  | cons c rest ih =>
    unfold splitTag? at h
    split at h
    · next close =>
      simp only [Bool.and_eq_true, beq_iff_eq] at close
      simp only [Option.some.injEq, Prod.mk.injEq] at h
      rw [← h.1, ← h.2, close.1, List.nil_append]
    · obtain ⟨⟨inside', after'⟩, found, pair⟩ := Option.map_eq_some_iff.1 h
      simp only [Prod.mk.injEq] at pair
      obtain ⟨rfl, rfl⟩ := pair
      rw [List.cons_append, ← ih found]

/-! ## Everything else -/

/-- The construct ends at the first `>` for which `closes` holds of the text
before it, which is given last character first. -/
def splitClosing? (closes : List Char → Bool) :
    List Char → List Char → Option (List Char × List Char)
  | _, [] => none
  | before, c :: rest =>
      if c == '>' && closes before then some (before.reverse, rest)
      else splitClosing? closes (c :: before) rest

theorem append_of_splitClosing? {closes : List Char → Bool} {before text inside after : List Char}
    (h : splitClosing? closes before text = some (inside, after)) :
    before.reverse ++ text = inside ++ '>' :: after := by
  induction text generalizing before with
  | nil => simp [splitClosing?] at h
  | cons c rest ih =>
    unfold splitClosing? at h
    split at h
    · next close =>
      simp only [Bool.and_eq_true, beq_iff_eq] at close
      simp only [Option.some.injEq, Prod.mk.injEq] at h
      rw [← h.1, ← h.2, close.1]
    · rw [← ih h, List.reverse_cons, List.append_assoc, List.singleton_append]

/-- A comment ends with `-->`, and takes two dashes more than it starts with. -/
def closesComment (before : List Char) : Bool :=
  decide (5 ≤ before.length) && before.take 2 == ['-', '-']

/-- A character data section ends with `]]>`. -/
def closesCharacterData (before : List Char) : Bool :=
  before.take 2 == [']', ']']

/-- A document type declaration ends when every `<` inside it is balanced. -/
def closesDoctype (before : List Char) : Bool :=
  before.count '<' == before.count '>'

/-- A processing instruction ends with `?>`. -/
def closesInstruction (before : List Char) : Bool :=
  before.head? == some '?'

end RuleNet.Markup
