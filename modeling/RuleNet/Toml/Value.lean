import RuleNet.Number.Binary64

/-!
# TOML values and the assembly of tables

A document is a list of statements that fill one tree of tables. A table
remembers how it came about, because that decides what may still be put into
it: a header may open a table that was only implied by a longer header, a
dotted key may reach into tables without a header, and nothing reaches into
braces. No key is ever given twice.
-/

namespace RuleNet.Toml

open Number (Binary64)

/-! ## Values -/

/-- How a table came about. -/
inductive Origin where
  /-- It has a header, or it is the document itself. -/
  | header
  /-- It was named on the way by a longer header. -/
  | implied
  /-- It was named on the way by a dotted key. -/
  | dotted
  /-- It was written between braces. -/
  | braces
deriving DecidableEq, Repr

/-- A value. -/
inductive Value where
  | string (s : String)
  | integer (n : Int64)
  | float (x : Binary64)
  | boolean (b : Bool)
  /-- A date, a time of day or both, as it was written. -/
  | moment (text : String)
  | array (items : List Value)
  /-- A table with its members in the order they were added. -/
  | table (origin : Origin) (members : List (String × Value))
  /-- The tables of a repeated header; further members go to the last one. -/
  | tables (closed : List (List (String × Value))) (last : List (String × Value))
deriving Inhabited, Repr

/-- The members of a table in the order they were added. -/
abbrev Members := List (String × Value)

/-! ## Reaching into tables -/

/-- The members after the value of a key was changed; a new key goes to the end. -/
def alter (key : String) (change : Option Value → Option Value) : Members → Option Members
  | [] => (change none).map fun value => [(key, value)]
  | (other, value) :: rest =>
      if other = key then (change (some value)).map fun value => (other, value) :: rest
      else (alter key change rest).map ((other, value) :: ·)

/-- What names the tables on the way to a member. -/
inductive Route where
  | header
  | dottedKey
deriving DecidableEq, Repr

/-- The route leads through tables of the given origin. -/
def Route.enters : Route → Origin → Bool
  | header, origin => origin != .braces
  | dottedKey, origin => origin == .implied || origin == .dotted

/-- The origin of a table that is first named on the way. -/
def Route.creates : Route → Origin
  | header => .implied
  | dottedKey => .dotted

/-- The table after a change to the table at the end of a path. -/
def alterAt (route : Route) (change : Origin → Members → Option Members) :
    List String → Origin → Members → Option Members
  | [], origin, members => change origin members
  | key :: path, _, members =>
      alter key (fun
        | none => (alterAt route change path route.creates []).map (Value.table route.creates)
        | some (.table origin inner) =>
            if route.enters origin then
              (alterAt route change path origin inner).map (Value.table origin)
            else none
        | some (.tables closed last) =>
            (alterAt route change path .header last).map (Value.tables closed)
        | some _ => none) members

/-! ## Statements -/

/-- A key with the tables that it names on the way. -/
structure KeyPath where
  tables : List String
  key : String
deriving DecidableEq, Repr

/-- All the keys in order. -/
def KeyPath.toList (path : KeyPath) : List String := path.tables ++ [path.key]

/-- The path of a list of keys, unless it is empty. -/
def KeyPath.ofList? (keys : List String) : Option KeyPath :=
  keys.getLast?.map fun key => ⟨keys.dropLast, key⟩

/-- A statement of a document. -/
inductive Statement where
  /-- A member of the table that the last header opened. -/
  | pair (path : KeyPath) (value : Value)
  /-- The header of a table. -/
  | header (path : KeyPath)
  /-- The header of a further table in an array of tables. -/
  | element (path : KeyPath)
deriving Repr

/-- A new member. A dotted key ends in a table that only dotted keys made. -/
def insert (path : KeyPath) (value : Value) (origin : Origin) (members : Members) :
    Option Members :=
  alterAt .dottedKey
    (fun origin members =>
      if path.tables.isEmpty || origin == .dotted then
        alter path.key (fun
          | none => some value
          | some _ => none) members
      else none)
    path.tables origin members

/-- The table of a header, which was at most implied before. -/
def openTable (path : KeyPath) (members : Members) : Option Members :=
  alterAt .header
    (fun _ => alter path.key fun
      | none => some (.table .header [])
      | some (.table .implied inner) => some (.table .header inner)
      | some _ => none)
    path.tables .header members

/-- A further table in an array of tables. -/
def openElement (path : KeyPath) (members : Members) : Option Members :=
  alterAt .header
    (fun _ => alter path.key fun
      | none => some (.tables [] [])
      | some (.tables closed last) => some (.tables (closed ++ [last]) [])
      | some _ => none)
    path.tables .header members

/-- The document after some more statements. `current` is the path of the
table that the last header opened. -/
def assembleFrom : List String → Members → List Statement → Option Members
  | _, members, [] => some members
  | current, members, .pair path value :: rest =>
      (alterAt .header (insert path value) current .header members).bind fun members =>
        assembleFrom current members rest
  | _, members, .header path :: rest =>
      (openTable path members).bind fun members => assembleFrom path.toList members rest
  | _, members, .element path :: rest =>
      (openElement path members).bind fun members => assembleFrom path.toList members rest

/-- The document that the statements describe. -/
def assemble (statements : List Statement) : Option Members :=
  assembleFrom [] [] statements

/-- The table of the pairs between two braces. -/
def ofPairs (pairs : List (KeyPath × Value)) : Option Value :=
  (pairs.foldlM (fun members pair => insert pair.1 pair.2 .braces members) []).map
    (Value.table .braces)

end RuleNet.Toml
