import RuleNet.Number.Decimal
import RuleNet.Text.Blank

/-!
# Numeric bounds

The text of a numeric leaf holds one number, which is matched exactly, or two,
the ends of an inclusive range. Blanks around the text do not count. Only the
space character separates the two numbers: a tab or a line break between them
makes the text one word, which is no number.
-/

namespace RuleNet.Rule

open Number (Binary64)

/-- Why a text holds no bounds. -/
inductive BoundsError where
  /-- The text, or one of its words, is no number. -/
  | badNumber (text : List Char)
  /-- The first bound is not below or at the second. -/
  | badRange (min max : List Char)
deriving DecidableEq, Repr

/-! ## Words -/

/-- The words of a text, when `word` has been read of the first one, last
character first. -/
def wordsFrom (word : List Char) : List Char → List (List Char)
  | [] => if word.isEmpty then [] else [word.reverse]
  | c :: rest =>
      if c = ' ' then
        if word.isEmpty then wordsFrom [] rest else word.reverse :: wordsFrom [] rest
      else wordsFrom (c :: word) rest

/-- The longest runs of the text without the space character. -/
def words (text : List Char) : List (List Char) :=
  wordsFrom [] text

/-! ## Bounds of any type -/

/-- A type that bounds can be written in. -/
structure BoundType (α : Type) where
  /-- The value of one word. -/
  read? : List Char → Option α
  /-- Less or equal. -/
  le : α → α → Bool

/-- The value of one word. -/
def readBound {α : Type} (kind : BoundType α) (word : List Char) : Except BoundsError α :=
  match kind.read? word with
  | some value => .ok value
  | none => .error (.badNumber word)

/-- The range between two words. -/
def readRange {α : Type} (kind : BoundType α) (low high : List Char) :
    Except BoundsError (α × α) := do
  let min ← readBound kind low
  let max ← readBound kind high
  if kind.le min max then return (min, max) else throw (.badRange low high)

/-- The bounds that a text holds. -/
def readBounds {α : Type} (kind : BoundType α) (text : List Char) : Except BoundsError (α × α) :=
  match words (Text.trim Text.isBlank text) with
  | [value] => readRange kind value value
  | [low, high] => readRange kind low high
  | _ => .error (.badNumber text)

/-! ## The two types of numbers -/

/-- Signed 64-bit integers. -/
def intBound : BoundType Int64 where
  read? := Number.readInt64?
  le := fun a b => decide (a ≤ b)

/-- Double-precision numbers. -/
def floatBound : BoundType Binary64 where
  read? := Number.readBinary64?
  le := Binary64.le

end RuleNet.Rule
