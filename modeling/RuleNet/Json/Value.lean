import RuleNet.Number.Binary64

/-!
# JSON values

Objects keep their members in document order, repeated keys included, because
both decide how a memory is read. A number is an integer when it is written
without fraction and exponent and fits into 64 bits, signed or unsigned.
-/

namespace RuleNet.Json

/-- The value of a JSON number. -/
inductive Numeral where
  /-- An integer from `-2 ^ 63` to `2 ^ 64 - 1`. -/
  | integer (n : Int)
  /-- Any other number. -/
  | float (x : Number.Binary64)
deriving DecidableEq, Repr

/-- A JSON value. -/
inductive Value where
  | null
  | bool (b : Bool)
  | number (n : Numeral)
  | string (s : String)
  | array (items : List Value)
  | object (members : List (String × Value))
deriving Inhabited, Repr

end RuleNet.Json
