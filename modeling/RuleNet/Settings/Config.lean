import RuleNet.Text.Utf8

/-!
# Settings

The options of building and running a network: what to do with a rule that
cannot be compiled, how carefully shared nodes are compared, which leaf names
are wildcards, and how many activations a node may hold.
-/

namespace RuleNet.Settings

/-- What to do with a rule that cannot be compiled. -/
inductive InvalidRules where
  /-- Stop at the first one. -/
  | failFast
  /-- Leave it out, and record why. -/
  | skip
deriving DecidableEq, Repr

/-- The options of building and running a network. -/
structure Config where
  invalidRules : InvalidRules := .failFast
  /-- Compare canonical texts before a node is shared; without this, equal
  hashes are enough. -/
  confirmCanonicalText : Bool := true
  /-- Names of leaf conditions that accept leaves of every name. -/
  wildcards : List String := ["_"]
  /-- How many activations a node holds at most; unbounded if absent. -/
  maxActivations : Option UInt64 := none
deriving DecidableEq, Repr

namespace Config

/-- The bound on the activations of a node; the largest 64-bit number if there is none. -/
def activationLimit (config : Config) : UInt64 :=
  config.maxActivations.getD 0xFFFFFFFFFFFFFFFF

/-- The name is one of the wildcards. -/
def isWildcard (config : Config) (name : String) : Bool :=
  config.wildcards.contains name

end Config

/-- Why there are no settings. -/
inductive SettingsError where
  /-- The file at `path` cannot be read. -/
  | unreadable (path : String) (why : Text.Unreadable)
  /-- The text is no TOML, or its values are not of the expected types. -/
  | invalid
deriving DecidableEq, Repr

/-- The complaint about settings. -/
def SettingsError.message : SettingsError → String
  | unreadable path why => "configuration error: " ++ why.message path
  | invalid => "configuration error"

end RuleNet.Settings
