/-!
# Fact identifiers

Every leaf fact carries a 64-bit identifier. Identifiers that come with a fact
are reserved: the allocator moves past them, so that a fresh identifier is one
that was not handed out or reserved before. The number of identifiers is
finite: after the last one the allocator starts again at zero.
-/

namespace RuleNet.Memory

/-- The identifier of a leaf fact. -/
abbrev FactId := UInt64

/-- The source of fresh identifiers. -/
structure Allocator where
  /-- The identifier that is handed out next. -/
  next : FactId := 1
deriving DecidableEq, Repr

namespace Allocator

/-- A fresh identifier, and the allocator after it. -/
def fresh (allocator : Allocator) : FactId × Allocator :=
  (allocator.next, ⟨allocator.next + 1⟩)

/-- The allocator after an identifier that came from outside. It stands past
the identifier, or at the last one if there is none past it. -/
def reserve (allocator : Allocator) (id : FactId) : Allocator :=
  let past := if id = 0xFFFFFFFFFFFFFFFF then id else id + 1
  if allocator.next < past then ⟨past⟩ else allocator

/-- The allocator after several identifiers that came from outside. -/
def reserveAll (allocator : Allocator) (ids : List FactId) : Allocator :=
  ids.foldl reserve allocator

end Allocator

end RuleNet.Memory
