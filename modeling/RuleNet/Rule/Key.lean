import RuleNet.Hash.SipHash
import RuleNet.Markup.Printer
import RuleNet.Number.Integer

/-!
# Structural keys

Two condition definitions are structurally equal when their canonical texts
are. The canonical text is the printed element without its layout: line feeds,
tabs and carriage returns are dropped, and so is every space that does not
stand before an ASCII digit. The spaces that stay keep numeric bounds apart,
`1 5` is not `15`.

A structural key is a canonical text together with its hash.
-/

namespace RuleNet.Rule

open Markup (Element)

/-! ## Canonical texts -/

/-- A character that the canonical text does not keep, given what follows it in
the text as it was. -/
def isRedundant (c : Char) (following : List Char) : Bool :=
  c == '\n' || c == '\t' || c == '\r' || (c == ' ' && !following.head?.any Char.isDigit)

/-- The text without its layout. -/
def canonicalize : List Char → List Char
  | [] => []
  | c :: rest => if isRedundant c rest then canonicalize rest else c :: canonicalize rest

@[simp] theorem canonicalize_nil : canonicalize [] = [] := rfl

/-- What is no layout is kept. -/
theorem canonicalize_cons_of_not_isRedundant {c : Char} {rest : List Char}
    (h : isRedundant c rest = false) : canonicalize (c :: rest) = c :: canonicalize rest := by
  simp [canonicalize, h]

/-! ## Keys -/

/-- The structural identity of a condition definition. -/
structure Key where
  /-- The canonical text. -/
  canonical : String
  /-- The hash of the canonical text. -/
  hash : UInt64
deriving DecidableEq, Repr

namespace Key

/-- The key of a text that is already canonical. -/
def ofCanonical (text : String) : Key :=
  ⟨text, Hash.hashText text.toList⟩

/-- The key of an element. -/
def ofElement (element : Element) : Key :=
  ofCanonical (String.ofList (canonicalize element.render))

/-- The hash in sixteen hexadecimal digits. -/
def display (key : Key) : String :=
  String.ofList (Number.writeHex 16 key.hash.toNat)

@[simp] theorem canonical_ofCanonical (text : String) : (ofCanonical text).canonical = text := rfl

@[simp] theorem hash_ofCanonical (text : String) :
    (ofCanonical text).hash = Hash.hashText text.toList := rfl

end Key

end RuleNet.Rule
