import RuleNet.Text.Utf8

/-!
# SipHash-1-3 with a zero key

A 64-bit hash of a byte string: the bytes are read as little-endian words, the
last word carries the length modulo 256 in its top byte, each word costs one
mixing round and the end costs three. `hashText` hashes the UTF-8 encoding of
a text closed by the byte `0xFF`, which no encoding contains.
-/

namespace RuleNet.Hash

/-- The four words that a SipHash computation works on. -/
structure SipState where
  v0 : UInt64
  v1 : UInt64
  v2 : UInt64
  v3 : UInt64
deriving DecidableEq, Repr

/-- The bits moved left by `n` places, those that fall off returning at the right. -/
def rotateLeft (x : UInt64) (n : UInt64) : UInt64 :=
  (x <<< n) ||| (x >>> (64 - n))

namespace SipState

/-- The state before the first word, both halves of the key being zero. -/
def start : SipState :=
  ⟨0x736f6d6570736575, 0x646f72616e646f6d, 0x6c7967656e657261, 0x7465646279746573⟩

/-- One mixing round. -/
def round (s : SipState) : SipState :=
  let v0 := s.v0 + s.v1
  let v1 := rotateLeft s.v1 13 ^^^ v0
  let v0 := rotateLeft v0 32
  let v2 := s.v2 + s.v3
  let v3 := rotateLeft s.v3 16 ^^^ v2
  let v0 := v0 + v3
  let v3 := rotateLeft v3 21 ^^^ v0
  let v2 := v2 + v1
  let v1 := rotateLeft v1 17 ^^^ v2
  let v2 := rotateLeft v2 32
  ⟨v0, v1, v2, v3⟩

/-- One word of the message is taken in. -/
def absorb (s : SipState) (word : UInt64) : SipState :=
  let mixed := round { s with v3 := s.v3 ^^^ word }
  { mixed with v0 := mixed.v0 ^^^ word }

/-- The hash, after all words. -/
def finish (s : SipState) : UInt64 :=
  let final := round (round (round { s with v2 := s.v2 ^^^ 0xFF }))
  final.v0 ^^^ final.v1 ^^^ final.v2 ^^^ final.v3

end SipState

/-- The bytes as one number, the first byte being the lowest. -/
def littleEndian : List UInt8 → Nat
  | [] => 0
  | b :: rest => b.toNat + 256 * littleEndian rest

/-- The words of a message of `length` bytes: full words, then the rest of the
bytes with the length on top. -/
def sipWords (length : Nat) : List UInt8 → List UInt64
  | a :: b :: c :: d :: e :: f :: g :: h :: rest =>
      UInt64.ofNat (littleEndian [a, b, c, d, e, f, g, h]) :: sipWords length rest
  | rest => [UInt64.ofNat (littleEndian rest + 2 ^ 56 * (length % 256))]

/-- SipHash-1-3 of a byte string. -/
def sipHash (bytes : List UInt8) : UInt64 :=
  ((sipWords bytes.length bytes).foldl SipState.absorb SipState.start).finish

/-- The hash of a text. -/
def hashText (text : List Char) : UInt64 :=
  sipHash (Text.encodeUtf8 text ++ [0xFF])

end RuleNet.Hash
