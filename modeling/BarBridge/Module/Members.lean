import BarBridge.Json.Writer
import BarBridge.Module.Basic
import BarBridge.Options

/-!
# A module from its object

The object under a module's key is read setting by setting. Each setting has one notion of a usable
value, and a value that is not usable counts as absent; keys that no setting has are ignored. This
is the only place where defaults are decided.
-/

namespace BarBridge.CustomModule

/-- The value of a setting. -/
def setting (members : List (String × Json)) (key : String) : Option Json :=
  members.lookup key

def stringSetting (members : List (String × Json)) (key : String) : Option String :=
  setting members key >>= Json.string?

/-- A setting that is a string and not empty. -/
def filledSetting (members : List (String × Json)) (key : String) : Option String :=
  (stringSetting members key).filter (· ≠ "")

def flagSetting (members : List (String × Json)) (key : String) (default : Bool) : Bool :=
  (setting members key >>= Json.bool?).getD default

/-- A length: an integer from one up to the largest of 32 bits. -/
def lengthSetting (members : List (String × Json)) (key : String) : Option UInt32 := do
  let n ← (← (← setting members key).number?).toUnsigned?
  if 0 < n ∧ n < UInt32.size then some (UInt32.ofNat n) else none

/-- A number of seconds that is not negative, its fraction dropped. -/
def secondsSetting (members : List (String × Json)) (key : String) : Option UInt64 := do
  let x ← (← (← setting members key).number?).toBinary64
  if x.negative && !x.isZero then none else some (capSeconds x.whole)

/-- An icon: a string, or a number as it is written. -/
def icon? : Json → Option String
  | .string s => some s
  | .number n => some (String.ofList n.write)
  | _ => none

/-- Icons are a list, or an object that has one as its default. -/
def iconsSetting : Option Json → List String
  | some (.array items) => items.filterMap icon?
  | some (.object states) =>
    match states.lookup "default" with
    | some (.array items) => items.filterMap icon?
    | _ => []
  | _ => []

/-- The module that an object describes. -/
def ofMembers (name source : String) (members : List (String × Json)) (options : Options) :
    CustomModule :=
  let signal := setting members "signal" >>= Json.number? >>= Number.toSigned?
  let interval := Interval.resolve (setting members "interval") options.defaultInterval
  { name
    source
    exec := (stringSetting members "exec").getD ""
    execIf := (stringSetting members "exec-if").getD ""
    interval := if signal.isSome then interval.onSignal options.signalPollInterval else interval
    signal
    format := (filledSetting members "format").getD plainFormat
    icons := iconsSetting (setting members "format-icons")
    output := if stringSetting members "return-type" = some "json" then .json else .plain
    maxLength := lengthSetting members "max-length"
    minLength := lengthSetting members "min-length"
    tooltip := flagSetting members "tooltip" true
    onClick := filledSetting members "on-click"
    onClickRight := filledSetting members "on-click-right"
    onClickMiddle := filledSetting members "on-click-middle"
    onScrollUp := filledSetting members "on-scroll-up"
    onScrollDown := filledSetting members "on-scroll-down"
    escapeMarkup := flagSetting members "escape" false
    execOnEvent := flagSetting members "exec-on-event" true
    restartInterval := secondsSetting members "restart-interval" }

end BarBridge.CustomModule
