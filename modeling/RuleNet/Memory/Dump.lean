import RuleNet.Json.Quoted
import RuleNet.Memory.Fact

/-!
# Writing a working memory

The JSON form of a working memory has no layout. A leaf is written with its
identifier, its name and its value, a group with its name and its children.
-/

namespace RuleNet.Memory

/-- The name of a member and the colon after it. -/
def writeKey (key : String) : List Char :=
  Json.writeString key.toList ++ [':']

/-- The JSON form of a value. -/
def Value.write : Value → List Char
  | bool b => if b then "true".toList else "false".toList
  | int n => Number.writeSigned n.toInt
  | float x => Number.FloatFormat.json.write x
  | string s => Json.writeString s.toList

namespace Fact

mutual
/-- The JSON form of a fact. -/
def write : Fact → List Char
  | leaf id name value =>
      '\x7b' :: writeKey "id" ++ Number.writeNatural id.toNat ++ ',' :: writeKey "name" ++
        Json.writeString name.toList ++ ',' :: writeKey "value" ++ value.write ++ ['\x7d']
  | group name children =>
      '\x7b' :: writeKey "name" ++ Json.writeString name.toList ++ ',' :: writeKey "children" ++
        '[' :: writeItems children ++ [']', '\x7d']

/-- The JSON forms of several facts, separated by commas. -/
def writeItems : List Fact → List Char
  | [] => []
  | fact :: rest => write fact ++ writeMore rest

/-- The JSON forms of several facts, a comma before each. -/
def writeMore : List Fact → List Char
  | [] => []
  | fact :: rest => ',' :: write fact ++ writeMore rest
end

end Fact

/-- The JSON form of a working memory. -/
def WorkingMemory.dump (memory : WorkingMemory) : String :=
  String.ofList ('\x7b' :: writeKey "facts" ++ '[' :: Fact.writeItems memory.facts ++ [']', '\x7d'])

end RuleNet.Memory
