import BarBridge.Options

/-!
# Command line arguments

A command line holds at most one path, options with a value, and switches. An option's value stands
in the next argument, or in the same one behind an equals sign or, for a short option, right behind
its letter. Short switches can be run together. Behind a double dash every argument is a path.

## When a value is judged

The value of an option, and the path, is held back until the next argument shows that it is
complete, and only then checked. An argument that is not known is refused at once; so where both are
wrong, the unknown argument is what the user is told about. Help and version, once reached, end the
reading; values held back before them are checked first.
-/

namespace BarBridge

structure Arguments where
  configPath : Option String := none
  outputDir : Option String := none
  mode : Option ArtifactMode := none
  verbose : Bool := false
  defaultInterval : Option UInt64 := none
  signalPollInterval : Option UInt64 := none
  dryRun : Bool := false
  noColor : Bool := false
  deriving DecidableEq, Repr

/-- Why a command line is not run. -/
inductive Usage where
  | unknownArgument
  /-- A value that is missing, empty or none of those allowed. -/
  | invalidValue
  /-- A number that is none. -/
  | invalidNumber
  /-- A value for a switch. -/
  | unexpectedValue
  /-- An option or switch given twice. -/
  | repeated
  | help
  | version
  deriving DecidableEq, Repr

namespace Arguments

/-- What takes a value. -/
inductive Slot where
  | configPath
  | outputDir
  | mode
  | defaultInterval
  | signalPollInterval
  deriving DecidableEq, Repr

inductive Switch where
  | verbose
  | dryRun
  | noColor
  | help
  | version
  deriving DecidableEq, Repr

/-- What an option name stands for. -/
inductive Name where
  | slot (s : Slot)
  | switch (s : Switch)
  deriving DecidableEq, Repr

/-- The meaning of a long name. -/
def longName? : String → Option Name
  | "output-dir" => some (.slot .outputDir)
  | "mode" => some (.slot .mode)
  | "default-interval" => some (.slot .defaultInterval)
  | "signal-poll-interval" => some (.slot .signalPollInterval)
  | "verbose" => some (.switch .verbose)
  | "dry-run" => some (.switch .dryRun)
  | "no-color" => some (.switch .noColor)
  | "help" => some (.switch .help)
  | "version" => some (.switch .version)
  | _ => none

/-- The meaning of a short name. -/
def shortName? : Char → Option Name
  | 'o' => some (.slot .outputDir)
  | 'm' => some (.slot .mode)
  | 'v' => some (.switch .verbose)
  | 'h' => some (.switch .help)
  | 'V' => some (.switch .version)
  | _ => none

/-- A number of seconds: decimal digits, perhaps behind a plus, of at most 64 bits. -/
def seconds? (value : String) : Option UInt64 :=
  let digits : List Char :=
    match value.toList with
    | '+' :: cs => cs
    | cs => cs
  let n := digits.foldl (fun n c ↦ 10 * n + (c.toNat - '0'.toNat)) 0
  if digits ≠ [] ∧ digits.all Char.isDigit ∧ n < UInt64.size then some (UInt64.ofNat n) else none

/-- Whether a slot has its value. -/
def holds (a : Arguments) : Slot → Bool
  | .configPath => a.configPath.isSome
  | .outputDir => a.outputDir.isSome
  | .mode => a.mode.isSome
  | .defaultInterval => a.defaultInterval.isSome
  | .signalPollInterval => a.signalPollInterval.isSome

/-- Gives a slot its value. -/
def fill (a : Arguments) (slot : Slot) (value : String) : Except Usage Arguments :=
  if a.holds slot then .error .repeated
  else
    match slot with
    | .configPath =>
      if value = "" then .error .invalidValue else .ok { a with configPath := some value }
    | .outputDir =>
      if value = "" then .error .invalidValue else .ok { a with outputDir := some value }
    | .mode =>
      match ArtifactMode.ofName? value with
      | some m => .ok { a with mode := some m }
      | none => .error .invalidValue
    | .defaultInterval =>
      match seconds? value with
      | some n => .ok { a with defaultInterval := some n }
      | none => .error .invalidNumber
    | .signalPollInterval =>
      match seconds? value with
      | some n => .ok { a with signalPollInterval := some n }
      | none => .error .invalidNumber

/-- Turns a switch on. -/
def turnOn (a : Arguments) : Switch → Except Usage Arguments
  | .help => .error .help
  | .version => .error .version
  | .verbose => if a.verbose then .error .repeated else .ok { a with verbose := true }
  | .dryRun => if a.dryRun then .error .repeated else .ok { a with dryRun := true }
  | .noColor => if a.noColor then .error .repeated else .ok { a with noColor := true }

/-- A command line under way. -/
structure Progress where
  arguments : Arguments := {}
  /-- A slot whose value is held back, or has not come yet. -/
  pending : Option (Slot × Option String) := none
  /-- Whether a path has been given. -/
  pathGiven : Bool := false
  /-- Whether a double dash has been passed. -/
  onlyPaths : Bool := false
  deriving Repr

namespace Progress

/-- Checks the value held back. -/
def settle (p : Progress) : Except Usage Progress :=
  match p.pending with
  | none => .ok p
  | some (_, none) => .error .invalidValue
  | some (slot, some value) =>
    (p.arguments.fill slot value).map fun a ↦ { p with arguments := a, pending := none }

/-- A value in the same argument as its option. -/
def attach (p : Progress) (slot : Slot) (value : String) : Except Usage Progress := do
  let p ← p.settle
  return { p with arguments := ← p.arguments.fill slot value }

/-- An option whose value is to come. -/
def await (p : Progress) (slot : Slot) : Except Usage Progress := do
  let p ← p.settle
  return { p with pending := some (slot, none) }

def switch (p : Progress) (s : Switch) : Except Usage Progress := do
  let p ← p.settle
  return { p with arguments := ← p.arguments.turnOn s }

/-- A long option, with what stands behind its equals sign. -/
def long (p : Progress) (name : String) (value : Option String) : Except Usage Progress :=
  match longName? name, value with
  | none, _ => .error .unknownArgument
  | some (.slot s), some v => p.attach s v
  | some (.slot s), none => p.await s
  | some (.switch _), some _ => .error .unexpectedValue
  | some (.switch s), none => p.switch s

/-- The letters of an argument with a single dash. -/
def short (p : Progress) : List Char → Except Usage Progress
  | [] => .ok p
  | c :: cs =>
    match shortName? c with
    | none => .error .unknownArgument
    | some (.switch s) =>
      match p.switch s with
      | .ok p => short p cs
      | .error u => .error u
    | some (.slot s) =>
      match cs with
      | [] => p.await s
      | '=' :: value => p.attach s (String.ofList value)
      | value => p.attach s (String.ofList value)

/-- An argument in the place of a path. -/
def path (p : Progress) (value : String) : Except Usage Progress :=
  if p.pathGiven then .error .unknownArgument
  else do
    let p ← p.settle
    return { p with pending := some (.configPath, some value), pathGiven := true }

/-- An argument that is no option: the value of the option before it, or a path. -/
def word (p : Progress) (value : String) : Except Usage Progress :=
  match p.pending with
  | some (slot, none) => .ok { p with pending := some (slot, some value) }
  | _ => p.path value

/-- Reads one argument. -/
def read (p : Progress) (argument : String) : Except Usage Progress :=
  if p.onlyPaths then p.path argument
  else
    match argument.toList with
    | ['-', '-'] => .ok { p with onlyPaths := true }
    | '-' :: '-' :: cs =>
      match cs.dropWhile (· != '=') with
      | _ :: value =>
        p.long (String.ofList (cs.takeWhile (· != '='))) (some (String.ofList value))
      | [] => p.long (String.ofList cs) none
    | '-' :: c :: cs => p.short (c :: cs)
    | _ => p.word argument

end Progress

/-- Reads a whole command line. -/
def parse (arguments : List String) : Except Usage Arguments := do
  let p ← arguments.foldlM Progress.read {}
  return (← p.settle).arguments

end Arguments

end BarBridge
