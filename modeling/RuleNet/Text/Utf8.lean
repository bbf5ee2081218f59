/-!
# UTF-8: byte counts, encoding and the contents of a file

Offsets in messages count bytes of the UTF-8 encoding while the readers work
on characters; `byteLength` converts between the two and is additive
(`byteLength_append`).
-/

namespace RuleNet.Text

/-- The number of bytes that the UTF-8 encoding of the text takes. -/
def byteLength : List Char → Nat
  | [] => 0
  | c :: rest => c.utf8Size + byteLength rest

@[simp] theorem byteLength_nil : byteLength [] = 0 := rfl

@[simp] theorem byteLength_cons (c : Char) (rest : List Char) :
    byteLength (c :: rest) = c.utf8Size + byteLength rest := rfl

@[simp] theorem byteLength_append (a b : List Char) :
    byteLength (a ++ b) = byteLength a + byteLength b := by
  induction a with
  | nil => simp
  | cons c a ih => simp [ih, Nat.add_assoc]

/-- The UTF-8 encoding of the text. -/
def encodeUtf8 (text : List Char) : List UInt8 :=
  text.flatMap String.utf8EncodeChar

/-- The byte order mark is dropped from the start of a text. -/
def dropByteOrderMark : List Char → List Char
  | '\uFEFF' :: rest => rest
  | text => text

/-! ## Files -/

/-- Why a file gives no text. -/
inductive Unreadable where
  /-- There is no such file. -/
  | missing
  /-- The bytes are not the UTF-8 encoding of a text. -/
  | notUtf8
deriving DecidableEq, Repr

namespace Unreadable

/-- The reason in words. -/
def reason : Unreadable → String
  | missing => "No such file or directory (os error 2)"
  | notUtf8 => "stream did not contain valid UTF-8"

/-- The complaint about the file at `path`. -/
def message (why : Unreadable) (path : String) : String :=
  "cannot read " ++ path ++ ": " ++ why.reason

end Unreadable

/-- The text of a file, given its bytes; `none` stands for a file that does not exist. -/
def readFile : Option ByteArray → Except Unreadable String
  | none => .error .missing
  | some bytes =>
      match String.fromUTF8? bytes with
      | none => .error .notUtf8
      | some text => .ok text

end RuleNet.Text
