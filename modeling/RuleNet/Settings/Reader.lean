import RuleNet.Settings.Config
import RuleNet.Toml.Reader

/-!
# Reading settings

Settings are written in TOML. Every option has a default, and members that are
no options are ignored. An option with a value of another type is an error.
-/

namespace RuleNet.Settings

open Toml (Members)

/-! ## Options -/

/-- The policy of the given name. -/
def InvalidRules.ofName? (name : String) : Option InvalidRules :=
  if name = "fail_fast" then some .failFast
  else if name = "skip" then some .skip
  else none

/-- A value that says nothing: an empty array or table. -/
def isVoid : Toml.Value → Bool
  | .array items => items.isEmpty
  | .table _ members => members.isEmpty
  | _ => false

/-- A policy: its name, or a table with the name as its only key and nothing behind it. -/
def decodePolicy? : Toml.Value → Option InvalidRules
  | .string name => InvalidRules.ofName? name
  | .table _ [(name, value)] => if isVoid value then InvalidRules.ofName? name else none
  | _ => none

/-- A truth value. -/
def decodeFlag? : Toml.Value → Option Bool
  | .boolean b => some b
  | _ => none

/-- A string. -/
def decodeText? : Toml.Value → Option String
  | .string s => some s
  | _ => none

/-- A list of strings. -/
def decodeTexts? : Toml.Value → Option (List String)
  | .array items => items.mapM decodeText?
  | _ => none

/-- A bound, which is not negative. -/
def decodeBound? : Toml.Value → Option UInt64
  | .integer n => if 0 ≤ n then some n.toUInt64 else none
  | _ => none

/-- An option's value, or the default if the option is not given. -/
def decodeOption? {α : Type} (members : Members) (key : String) (default : α)
    (decode? : Toml.Value → Option α) : Option α :=
  match members.lookup key with
  | none => some default
  | some value => decode? value

/-! ## Settings -/

/-- The settings that the members of a table describe. -/
def Config.ofMembers? (members : Members) : Option Config := do
  let defaults : Config := {}
  let invalidRules ← decodeOption? members "invalid_rules" defaults.invalidRules decodePolicy?
  let confirm ← decodeOption? members "confirm_canonical_text" defaults.confirmCanonicalText
    decodeFlag?
  let wildcards ← decodeOption? members "wildcard_tokens" defaults.wildcards decodeTexts?
  let bound ← decodeOption? members "max_activations_per_node" defaults.maxActivations
    fun value => (decodeBound? value).map some
  return {
    invalidRules := invalidRules
    confirmCanonicalText := confirm
    wildcards := wildcards
    maxActivations := bound }

/-- The settings of a text. -/
def readConfig (text : String) : Except SettingsError Config :=
  match (Toml.read text).bind Config.ofMembers? with
  | some config => .ok config
  | none => .error .invalid

/-- The settings of the file at `path`, given its bytes if it exists. -/
def readConfigFile (path : String) (bytes : Option ByteArray) : Except SettingsError Config :=
  match Text.readFile bytes with
  | .error why => .error (.unreadable path why)
  | .ok text => readConfig text

end RuleNet.Settings
