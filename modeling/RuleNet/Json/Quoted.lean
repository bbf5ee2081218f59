import RuleNet.Number.Integer

/-!
# JSON strings

A string is written between quotes. A quote, a backslash and the control
characters are escaped, nothing else. Reading knows every escape of JSON;
characters beyond the first 65536 are escaped as a pair of surrogates, and half
a pair is refused. `readString_writeString` says that what was written reads
back.
-/

namespace RuleNet.Json

/-! ## Writing -/

/-- The written form of one character. -/
def writeChar (c : Char) : List Char :=
  if c = '"' then ['\\', '"']
  else if c = '\\' then ['\\', '\\']
  else if c.toNat = 0x8 then ['\\', 'b']
  else if c.toNat = 0xC then ['\\', 'f']
  else if c = '\n' then ['\\', 'n']
  else if c = '\r' then ['\\', 'r']
  else if c = '\t' then ['\\', 't']
  else if c.toNat < 0x20 then '\\' :: 'u' :: Number.writeHex 4 c.toNat
  else [c]

/-- The written form of a string, quotes included. -/
def writeString (s : List Char) : List Char :=
  '"' :: s.flatMap writeChar ++ ['"']

/-! ## Reading -/

/-- The character of an escape of one letter. -/
def simpleEscape? : Char → Option Char
  | '"' => some '"'
  | '\\' => some '\\'
  | '/' => some '/'
  | 'b' => some (Char.ofNat 0x8)
  | 'f' => some (Char.ofNat 0xC)
  | 'n' => some '\n'
  | 'r' => some '\r'
  | 't' => some '\t'
  | _ => none

/-- The number that four hexadecimal digits denote. -/
def codeUnit? (a b c d : Char) : Option Nat := do
  let a ← Number.digit? 16 a
  let b ← Number.digit? 16 b
  let c ← Number.digit? 16 c
  let d ← Number.digit? 16 d
  return ((a * 16 + b) * 16 + c) * 16 + d

/-- The first half of a surrogate pair. -/
def isHighSurrogate (unit : Nat) : Bool := 0xD800 ≤ unit && unit < 0xDC00

/-- The second half of a surrogate pair. -/
def isLowSurrogate (unit : Nat) : Bool := 0xDC00 ≤ unit && unit < 0xE000

/-- The rest of a string after its opening quote, and what follows the closing
one. `high` is the first half of a surrogate pair when the second half has to
come next. -/
def readStringFrom : Option Nat → List Char → Option (List Char × List Char)
  | _, [] => none
  | high, '"' :: rest => if high.isSome then none else some ([], rest)
  | high, '\\' :: 'u' :: a :: b :: c :: d :: rest =>
      match codeUnit? a b c d, high with
      | none, _ => none
      | some unit, none =>
          if isHighSurrogate unit then readStringFrom (some unit) rest
          else if isLowSurrogate unit then none
          else (readStringFrom none rest).map fun (s, after) => (Char.ofNat unit :: s, after)
      | some unit, some first =>
          if isLowSurrogate unit then
            (readStringFrom none rest).map fun (s, after) =>
              (Char.ofNat (0x10000 + (first - 0xD800) * 0x400 + (unit - 0xDC00)) :: s, after)
          else none
  | high, '\\' :: letter :: rest =>
      if high.isSome then none
      else match simpleEscape? letter with
        | none => none
        | some c => (readStringFrom none rest).map fun (s, after) => (c :: s, after)
  | high, c :: rest =>
      if high.isSome || c == '\\' || c.toNat < 0x20 then none
      else (readStringFrom none rest).map fun (s, after) => (c :: s, after)

/-- The rest of a string after its opening quote, and what follows the closing one. -/
def readString (text : List Char) : Option (List Char × List Char) :=
  readStringFrom none text

/-- What follows a string whose value is of no interest, after its opening
quote. Escapes are checked for their form, not for what they denote. -/
def skipString : List Char → Option (List Char)
  | [] => none
  | '"' :: rest => some rest
  | '\\' :: 'u' :: a :: b :: c :: d :: rest =>
      if (codeUnit? a b c d).isSome then skipString rest else none
  | '\\' :: letter :: rest => if (simpleEscape? letter).isSome then skipString rest else none
  | c :: rest => if c == '\\' || c.toNat < 0x20 then none else skipString rest

/-! ## What is written reads back -/

/-- The four digits of a control character's escape denote that character. -/
theorem exists_writeHex_eq {n : Nat} (h : n < 0x20) :
    ∃ a b c d, Number.writeHex 4 n = [a, b, c, d] ∧ codeUnit? a b c d = some n := by
  have all : ∀ n < 0x20, ∃ digits : Char × Char × Char × Char,
      Number.writeHex 4 n = [digits.1, digits.2.1, digits.2.2.1, digits.2.2.2] ∧
        codeUnit? digits.1 digits.2.1 digits.2.2.1 digits.2.2.2 = some n := by
    intro n h
    refine ⟨('0', '0', Nat.digitChar (n / 16), Nat.digitChar (n % 16)), ?_⟩
    revert n
    decide
  obtain ⟨digits, equal, value⟩ := all n h
  exact ⟨_, _, _, _, equal, value⟩

/-- An escape of one letter is read as its character. -/
theorem readStringFrom_escape {letter c : Char} (known : simpleEscape? letter = some c)
    (rest : List Char) :
    readStringFrom none ('\\' :: letter :: rest) =
      (readStringFrom none rest).map fun (s, after) => (c :: s, after) := by
  have other : letter ≠ 'u' := by rintro rfl; simp [simpleEscape?] at known
  rw [readStringFrom]
  · simp [known]
  · intros; simp_all

/-- The written form of one character is read as that character. -/
theorem readStringFrom_writeChar (c : Char) (rest : List Char) :
    readStringFrom none (writeChar c ++ rest) =
      (readStringFrom none rest).map fun (s, after) => (c :: s, after) := by
  have named (n : Nat) (h : c.toNat = n) : c = Char.ofNat n := by rw [← h, Char.ofNat_toNat]
  unfold writeChar
  split
  · next h => subst h; exact readStringFrom_escape rfl rest
  split
  · next h => subst h; exact readStringFrom_escape rfl rest
  split
  · next h => rw [named _ h]; exact readStringFrom_escape rfl rest
  split
  · next h => rw [named _ h]; exact readStringFrom_escape rfl rest
  split
  · next h => subst h; exact readStringFrom_escape rfl rest
  split
  · next h => subst h; exact readStringFrom_escape rfl rest
  split
  · next h => subst h; exact readStringFrom_escape rfl rest
  split
  · next control =>
    obtain ⟨x, y, z, w, equal, value⟩ := exists_writeHex_eq control
    have notHigh : isHighSurrogate c.toNat = false := by simp [isHighSurrogate]; omega
    have notLow : isLowSurrogate c.toNat = false := by simp [isLowSurrogate]; omega
    simp [equal, readStringFrom, value, notHigh, notLow, Char.ofNat_toNat]
  · next quote slash _ _ _ _ _ control =>
    rw [List.singleton_append, readStringFrom]
    · simp [slash, control]
    all_goals intros; simp_all

/-- What was written reads back, and nothing of what follows is touched. -/
theorem readString_writeString (s rest : List Char) :
    readString ((writeString s).drop 1 ++ rest) = some (s, rest) := by
  induction s with
  | nil => rfl
  | cons c s ih =>
    simp only [readString, writeString, List.flatMap_cons, List.drop_succ_cons, List.drop_zero,
      List.append_assoc, List.cons_append] at ih ⊢
    rw [readStringFrom_writeChar, ih]
    rfl

end RuleNet.Json
