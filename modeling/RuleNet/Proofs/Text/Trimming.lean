import RuleNet.Text.Blank

/-!
# What trimming leaves

A text is *tight* if it neither starts nor ends with a blank. Trimming cuts a
text into a blank run, a tight text and another blank run (`exists_trim`,
`tight_trim`), and it leaves exactly the tight texts alone (`trim_eq_self_iff`).
-/

namespace RuleNet.Text

variable {blank : Char → Bool}

/-- The text neither starts nor ends with a blank. -/
structure Tight (blank : Char → Bool) (text : List Char) : Prop where
  head : ∀ c, text.head? = some c → blank c = false
  last : ∀ c, text.getLast? = some c → blank c = false

/-! ## The end of a text -/

/-- Nothing is dropped from a text that is empty or ends in no blank. -/
theorem trimEnd_eq_self {text : List Char} (h : ∀ c, text.getLast? = some c → blank c = false) :
    trimEnd blank text = text := by
  rcases List.eq_nil_or_concat text with rfl | ⟨before, c, rfl⟩
  · rfl
  · rw [List.concat_eq_append] at h ⊢
    exact trimEnd_append_singleton (h c List.getLast?_concat) before

/-- A blank run at the end changes nothing. -/
theorem trimEnd_append_of_pos {gap : List Char} (h : ∀ c ∈ gap, blank c = true) (text : List Char) :
    trimEnd blank (text ++ gap) = trimEnd blank text := by
  have reversed : ∀ c ∈ gap.reverse, blank c = true := fun c member =>
    h c (List.mem_reverse.mp member)
  unfold trimEnd
  rw [List.reverse_append, List.dropWhile_append_of_pos reversed]

theorem exists_trimEnd (blank : Char → Bool) (text : List Char) :
    ∃ gap, (∀ c ∈ gap, blank c = true) ∧ text = trimEnd blank text ++ gap := by
  refine ⟨(text.reverse.takeWhile blank).reverse, ?_, ?_⟩
  · intro c member
    exact List.all_eq_true.mp List.all_takeWhile c (List.mem_reverse.mp member)
  · unfold trimEnd
    rw [← List.reverse_append, List.takeWhile_append_dropWhile, List.reverse_reverse]

theorem last_trimEnd {text : List Char} {c : Char} (h : (trimEnd blank text).getLast? = some c) :
    blank c = false := by
  unfold trimEnd at h
  rw [List.getLast?_reverse] at h
  have kept := List.head?_dropWhile_not blank text.reverse
  rw [h] at kept
  exact kept

/-! ## Both ends -/

/-- Trimming cuts off a blank run at either end. -/
theorem exists_trim (blank : Char → Bool) (text : List Char) :
    ∃ before after, (∀ c ∈ before, blank c = true) ∧ (∀ c ∈ after, blank c = true) ∧
      text = before ++ (trim blank text ++ after) := by
  obtain ⟨after, blanks, same⟩ := exists_trimEnd blank (text.dropWhile blank)
  refine ⟨text.takeWhile blank, after, List.all_eq_true.mp List.all_takeWhile, blanks, ?_⟩
  unfold trim
  rw [← same, List.takeWhile_append_dropWhile]

/-- Blank runs at the ends change nothing. -/
theorem trim_append_of_pos {before after : List Char} (front : ∀ c ∈ before, blank c = true)
    (behind : ∀ c ∈ after, blank c = true) (text : List Char) :
    trim blank (before ++ (text ++ after)) = trim blank text := by
  unfold trim
  rw [List.dropWhile_append_of_pos front, List.dropWhile_append]
  split
  · next empty =>
    have gone : after.dropWhile blank = [] := by
      rw [← List.append_nil after, List.dropWhile_append_of_pos behind]
      rfl
    rw [List.isEmpty_iff.mp empty, gone]
  · exact trimEnd_append_of_pos behind _

theorem tight_trim (blank : Char → Bool) (text : List Char) : Tight blank (trim blank text) where
  head := by
    intro c first
    obtain ⟨after, -, same⟩ := exists_trimEnd blank (text.dropWhile blank)
    have kept := List.head?_dropWhile_not blank text
    unfold trim at first
    rw [same, List.head?_append, first] at kept
    exact kept
  last := fun _ => last_trimEnd

theorem trim_eq_self_iff {text : List Char} : trim blank text = text ↔ Tight blank text := by
  constructor
  · intro same
    exact same ▸ tight_trim blank text
  · intro tight
    have front : text.dropWhile blank = text := by
      cases text with
      | nil => rfl
      | cons c rest => exact List.dropWhile_cons_of_neg (by rw [tight.head c rfl]; decide)
    unfold trim
    rw [front]
    exact trimEnd_eq_self tight.last

instance (text : List Char) : Decidable (Tight blank text) :=
  decidable_of_iff _ trim_eq_self_iff

end RuleNet.Text
