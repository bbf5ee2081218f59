import RuleNet.Json.Reader
import RuleNet.Memory.Attempt

/-!
# Loading a working memory

A working memory is written as JSON: an object whose member `facts` lists the
facts, or an array with that list as its only element. Other members of the
object are ignored.

A fact is an object or an array. It is read as a leaf first, and if that fails
as a group. A leaf has the members `id`, `name` and `value`, of which `id` may
be missing; as an array it is `[id, name, value]`. A group has the members
`name` and `children`, of which `children` may be missing; as an array it is
`[name]` or `[name, children]`. No other members are allowed.

Facts are read one after the other while the text is scanned. An identifier is
reserved when it is read, and a missing one is allocated at the end of the
leaf, before it is known whether the rest of the leaf is there. What an
attempt did to the allocator is never undone, whether the attempt fails, the
fact fails, or the text turns out to be no JSON further on.
-/

namespace RuleNet.Memory

open Json (Value.bool Value.number Value.string Value.array Value.object)

/-! ## Leaves -/

/-- The value of a leaf. Integers within the signed 64-bit range are integers,
all other numbers are floating-point numbers. -/
def decodeValue? : Json.Value → Option Value
  | .bool b => some (.bool b)
  | .number (.integer n) =>
      match Number.toInt64? n with
      | some word => some (.int word)
      | none => some (.float (Number.Binary64.ofInt n))
  | .number (.float x) => some (.float x)
  | .string s => some (.string s)
  | _ => none

/-- An identifier is an unsigned 64-bit integer, and is reserved at once. -/
def decodeId : Json.Value → Attempt FactId
  | .number (.integer n) => if 0 ≤ n then Attempt.reserve (UInt64.ofNat n.toNat) else Attempt.fail
  | _ => Attempt.fail

/-- A name is a string. -/
def decodeName? : Json.Value → Option String
  | .string s => some s
  | _ => none

/-- The members of a leaf that have been read. -/
structure LeafParts where
  id : Option FactId := none
  name : Option String := none
  value : Option Value := none

/-- A leaf, once all of its members are read: the identifier comes first. -/
def LeafParts.finish (parts : LeafParts) : Attempt Fact := do
  let id ← match parts.id with
    | some id => Attempt.succeed id
    | none => Attempt.fresh
  let name ← Attempt.ofOption parts.name
  let value ← Attempt.ofOption parts.value
  return .leaf id name value

/-- One member of a leaf; an unknown or repeated one fails. -/
def LeafParts.read (parts : LeafParts) (key : String) (member : Json.Value) : Attempt LeafParts :=
  if key = "id" then
    if parts.id.isSome then Attempt.fail
    else do return { parts with id := some (← decodeId member) }
  else if key = "name" then
    if parts.name.isSome then Attempt.fail
    else do return { parts with name := some (← Attempt.ofOption (decodeName? member)) }
  else if key = "value" then
    if parts.value.isSome then Attempt.fail
    else do return { parts with value := some (← Attempt.ofOption (decodeValue? member)) }
  else Attempt.fail

/-- A leaf from its members, in document order. -/
def decodeLeafMembers : LeafParts → List (String × Json.Value) → Attempt Fact
  | parts, [] => parts.finish
  | parts, (key, member) :: rest => do
      let parts ← parts.read key member
      decodeLeafMembers parts rest

/-- A leaf from the elements of an array. Without any, an identifier is
allocated all the same. -/
def decodeLeafItems : List Json.Value → Attempt Fact
  | [] => do
      let _ ← Attempt.fresh
      Attempt.fail
  | id :: rest => do
      let id ← decodeId id
      match rest with
      | [name, value] =>
          let name ← Attempt.ofOption (decodeName? name)
          let value ← Attempt.ofOption (decodeValue? value)
          return .leaf id name value
      | _ => Attempt.fail

/-- A leaf. -/
def decodeLeaf : Json.Value → Attempt Fact
  | .object members => decodeLeafMembers {} members
  | .array items => decodeLeafItems items
  | _ => Attempt.fail

/-! ## Facts -/

mutual
/-- A fact: a leaf, or else a group. -/
def decodeFact : Json.Value → Attempt Fact
  | .object members =>
      Attempt.orElse (decodeLeaf (.object members)) (decodeGroupMembers none none members)
  | .array [.string name] =>
      Attempt.orElse (decodeLeaf (.array [.string name])) (Attempt.succeed (.group name []))
  | .array (.string name :: .array children :: rest) =>
      Attempt.orElse (decodeLeaf (.array (.string name :: .array children :: rest)))
        (Attempt.andThen (decodeFacts children) fun children =>
          if rest.isEmpty then Attempt.succeed (.group name children) else Attempt.fail)
  | other => decodeLeaf other

/-- A group from its members, in document order; an unknown or repeated one fails. -/
def decodeGroupMembers (name : Option String) (children : Option (List Fact)) :
    List (String × Json.Value) → Attempt Fact
  | [] =>
      match name with
      | some name => Attempt.succeed (.group name (children.getD []))
      | none => Attempt.fail
  | (key, member) :: rest =>
      if key = "name" then
        match name, member with
        | none, .string name => decodeGroupMembers (some name) children rest
        | _, _ => Attempt.fail
      else if key = "children" then
        match children, member with
        | none, .array items =>
            Attempt.andThen (decodeFacts items) fun facts =>
              decodeGroupMembers name (some facts) rest
        | _, _ => Attempt.fail
      else Attempt.fail

/-- Several facts, one after the other. -/
def decodeFacts : List Json.Value → Attempt (List Fact)
  | [] => Attempt.succeed []
  | item :: rest =>
      Attempt.andThen (decodeFact item) fun fact =>
        Attempt.andThen (decodeFacts rest) fun facts => Attempt.succeed (fact :: facts)
end

/-! ## Documents -/

/-- How deep arrays and objects may nest in a document. -/
def maxDepth : Nat := 127

/-- The depth that is left for a fact, inside of the document and its list of facts. -/
def factDepth : Nat := maxDepth - 2

/-- The facts of a list that is not empty, up to and with its closing bracket.
Each fact is scanned as a whole, then decoded, before the text after it is
looked at. -/
def readFacts : Nat → List Char → Attempt (List Fact × List Char)
  | 0, _ => Attempt.fail
  | fuel + 1, text => do
      let (item, rest) ← Attempt.ofOption (Json.readValue (Json.fuelFor text) factDepth text)
      let fact ← decodeFact item
      match Json.expect? ',' rest with
      | some rest =>
          let (facts, rest) ← readFacts fuel rest
          return (fact :: facts, rest)
      | none =>
          let rest ← Attempt.ofOption (Json.expect? ']' rest)
          return ([fact], rest)

/-- A list of facts, from before its opening bracket. -/
def readFactList (text : List Char) : Attempt (List Fact × List Char) := do
  let rest ← Attempt.ofOption (Json.expect? '[' text)
  match Json.expect? ']' rest with
  | some rest => return ([], rest)
  | none => readFacts rest.length rest

/-- The value of one member of a document. `facts` is the list of facts if it
was there before. -/
def readDocumentMember (facts : Option (List Fact)) (key : String) (text : List Char) :
    Attempt (Option (List Fact) × List Char) :=
  if key = "facts" then
    if facts.isSome then Attempt.fail
    else do
      let (read, rest) ← readFactList text
      return (some read, rest)
  else do
    let rest ← Attempt.ofOption (Json.skipValue (Json.fuelFor text) text)
    return (facts, rest)

/-- The members of a document that is not empty, up to and with its closing
bracket. -/
def readDocumentMembers : Nat → Option (List Fact) → List Char → Attempt (List Fact × List Char)
  | 0, _, _ => Attempt.fail
  | fuel + 1, facts, text => do
      let (key, rest) ← Attempt.ofOption (Json.readKey text)
      let (facts, rest) ← readDocumentMember facts key rest
      match Json.expect? ',' rest with
      | some rest => readDocumentMembers fuel facts rest
      | none =>
          let rest ← Attempt.ofOption (Json.expect? '\x7d' rest)
          let facts ← Attempt.ofOption facts
          return (facts, rest)

/-- A document and what follows it. -/
def readDocument (text : List Char) : Attempt (List Fact × List Char) :=
  match text.dropWhile Text.isLayout with
  | '\x7b' :: rest => readDocumentMembers rest.length none rest
  | '[' :: rest => do
      let (facts, rest) ← readFactList rest
      let rest ← Attempt.ofOption (Json.expect? ']' rest)
      return (facts, rest)
  | _ => Attempt.fail

namespace WorkingMemory

/-- The working memory that a text denotes. -/
def load (text : String) : Attempt WorkingMemory := do
  let (facts, rest) ← readDocument text.toList
  if rest.all Text.isLayout then return ⟨facts⟩ else Attempt.fail

end WorkingMemory

end RuleNet.Memory
