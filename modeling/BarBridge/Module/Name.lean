import BarBridge.Module.Basic

/-!
# Names and file names

Each module becomes files, so its name has to serve as a segment of a path. Separators become
dashes, and the three names that would denote no file of their own, the empty one and the two of
dots, are replaced. Different names can share a stem; `uniqueNames` keeps the stems apart.

## How a name is made unique

Modules are named in order. A module keeps its name if the stem is free; otherwise it takes the
first free suffix `-2`, `-3`, …, counting on from the last number given to a module of the same
stem. The search is bounded by the number of stems in use: suffixes give distinct stems, so one more
than that many of them cannot all be taken.
-/

namespace BarBridge

/-- A name with its path separators turned into dashes. -/
def dashed (name : String) : String :=
  String.ofList (name.toList.map fun c ↦ if c = '/' ∨ c = '\\' then '-' else c)

/-- The path segment of a name. -/
def fileStem (name : String) : String :=
  match dashed name with
  | "" => "module"
  | "." => "dot"
  | ".." => "dot-dot"
  | stem => stem

/-- Whether a name had to be replaced, beyond turning separators into dashes. -/
def isReplaced (name : String) : Bool :=
  fileStem name != dashed name

/-- The name of a module as the `n`th of its stem. -/
def numbered (name : String) (n : Nat) : String :=
  if n = 1 then name else name ++ "-" ++ toString n

/-- The least number from `n` on, among the next `fuel`, whose stem is free. -/
def freeNumber (taken : List String) (name : String) : Nat → Nat → Nat
  | 0, n => n
  | fuel + 1, n =>
    if fileStem (numbered name n) ∈ taken then freeNumber taken name fuel (n + 1) else n

/-- What has been given out so far: the stems in use, and the last number given to each stem asked
for. -/
structure Register where
  taken : List String
  numbers : List (String × Nat)

namespace Register

def empty : Register :=
  ⟨[], []⟩

/-- The last number given to a stem, zero before the first. -/
def last (r : Register) (stem : String) : Nat :=
  (r.numbers.lookup stem).getD 0

/-- The number that a name gets. -/
def next (r : Register) (name : String) : Nat :=
  freeNumber r.taken name r.taken.length (r.last (fileStem name) + 1)

/-- Gives a name its number. -/
def enter (r : Register) (name : String) : Register :=
  let n := r.next name
  ⟨fileStem (numbered name n) :: r.taken, (fileStem name, n) :: r.numbers⟩

/-- The names given, in order. -/
def assign (r : Register) : List String → List String
  | [] => []
  | name :: names => numbered name (r.next name) :: assign (r.enter name) names

end Register

/-- The names under which modules of the given names are written. -/
def uniqueNames (names : List String) : List String :=
  Register.empty.assign names

/-- Modules with unique names, otherwise unchanged. -/
def uniquelyNamed (modules : List CustomModule) : List CustomModule :=
  List.zipWith (fun m name ↦ { m with name }) modules (uniqueNames (modules.map (·.name)))

end BarBridge
