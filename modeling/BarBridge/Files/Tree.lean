import BarBridge.Failure
import BarBridge.Files.Path

/-!
# Trees of files

A tree says for every location whether there is a directory, a file with its contents, or nothing. A
location is the list of names from the root down, free of dots and slashes. The tree is kept as a
list of entries, one for each location, so that a statement about a change to it is a statement
about looking up one location.

Contents are text, or bytes that are no text in UTF-8.

## Two dots and failures

Two dots lead from a directory to the one above it, and only from a directory that exists; so a path
is walked name by name and not simplified beforehand. Making directories on the way to a file
creates each missing one in turn; where that fails, those already made stay.

A tree may limit the length of names and of paths. Names that are too long can neither be found nor
created, and a path that is too long, as it is written and not as it is walked, denotes nothing. The
directories on the way to a file have a path of their own, the part before the last name.
-/

namespace BarBridge

/-- The names from the root of a tree down. -/
abbrev Location := List String

inductive Contents where
  | text (s : String)
  | binary (bytes : List UInt8)
  deriving DecidableEq, Repr

inductive Entry where
  | directory
  | file (contents : Contents)
  deriving DecidableEq, Repr

/-- The number of bytes that names and paths may have; `none` for any number. -/
structure Limits where
  name : Option Nat
  path : Option Nat
  deriving DecidableEq, Repr

structure FileTree where
  entries : List (Location × Entry)
  limits : Limits
  deriving DecidableEq, Repr

/-- Names and paths of any length. -/
def Limits.unbounded : Limits :=
  ⟨none, none⟩

/-- Whether a text keeps to a number of bytes. -/
def isWithin (limit : Option Nat) (s : String) : Bool :=
  limit.all fun n ↦ decide (s.utf8ByteSize ≤ n)

namespace Contents

/-- Bytes as contents. -/
def ofBytes (bytes : List UInt8) : Contents :=
  match String.fromUTF8? (ByteArray.mk bytes.toArray) with
  | some s => text s
  | none => binary bytes

/-- The text of a file. -/
def read : Contents → Except IoCause String
  | text s => .ok s
  | binary _ => .error .notUtf8

end Contents

namespace FileTree

/-- A tree with nothing but its root. -/
def empty (limits : Limits) : FileTree :=
  ⟨[], limits⟩

/-- What stands at a location. The root is a directory. -/
def lookup? (t : FileTree) (loc : Location) : Option Entry :=
  if loc = [] then some .directory else t.entries.lookup loc

/-- The tree with one location changed. -/
def set (t : FileTree) (loc : Location) (e : Entry) : FileTree :=
  { t with entries := (loc, e) :: t.entries.filter fun x ↦ x.1 ≠ loc }

/-- Whether a name is short enough. -/
def fitsName (t : FileTree) (name : String) : Bool :=
  isWithin t.limits.name name

/-- Whether a path is short enough. -/
def fitsPath (t : FileTree) (path : String) : Bool :=
  isWithin t.limits.path path

/-- The location that names lead to, through directories that exist. -/
def walk (t : FileTree) (loc : Location) : List String → Option Location
  | [] => some loc
  | name :: names =>
    match t.lookup? loc with
    | some .directory =>
      if name = ".." then walk t loc.dropLast names
      else if (t.lookup? (loc ++ [name])).isSome then walk t (loc ++ [name]) names
      else none
    | _ => none

/-- Where the names of a path begin. -/
def startOf (cwd path : String) : Location :=
  if Path.isAbsolute path then [] else Path.components cwd

/-- The contents of the file that a path denotes. -/
def file? (t : FileTree) (cwd path : String) : Option Contents :=
  if Path.hasNul path || Path.namesDirectory path || !t.fitsPath path then none
  else
    match t.walk (startOf cwd path) (Path.components path) with
    | none => none
    | some loc =>
      match t.lookup? loc with
      | some (.file c) => some c
      | _ => none

/-- Whether a path denotes a file. -/
def isFile (t : FileTree) (cwd path : String) : Bool :=
  (t.file? cwd path).isSome

/-- Makes the directories that names lead through. Answers the tree and the location of the last
one, or `none` where a name cannot be made a directory. -/
def makeDirectories (t : FileTree) (loc : Location) : List String → FileTree × Option Location
  | [] => (t, some loc)
  | name :: names =>
    match t.lookup? loc with
    | some .directory =>
      if name = ".." then makeDirectories t loc.dropLast names
      else
        match t.lookup? (loc ++ [name]) with
        | some .directory => makeDirectories t (loc ++ [name]) names
        | some (.file _) => (t, none)
        | none =>
          if t.fitsName name then
            makeDirectories (t.set (loc ++ [name]) .directory) (loc ++ [name]) names
          else (t, none)
    | _ => (t, none)

/-- The location of a new or old file of a directory. -/
def fileTarget? (t : FileTree) (dir : Location) (path : String) : Except IoCause Location :=
  if Path.hasNul path then .error .nulInPath
  else if Path.namesDirectory path || !t.fitsPath path then .error .refused
  else
    match (Path.components path).getLast? with
    | none => .error .refused
    | some name =>
      match t.lookup? (dir ++ [name]) with
      | some .directory => .error .refused
      | some (.file _) => .ok (dir ++ [name])
      | none => if t.fitsName name then .ok (dir ++ [name]) else .error .refused

/-- Writes a file, with the directories on the way to it. -/
def writeFile (t : FileTree) (cwd path contents : String) : FileTree × Except IoCause Unit :=
  let parents := (Path.components path).dropLast
  if parents.any Path.hasNul then (t, .error .nulInPath)
  else if !t.fitsPath (Path.parent path) then (t, .error .refused)
  else
    match t.makeDirectories (startOf cwd path) parents with
    | (t, none) => (t, .error .refused)
    | (t, some dir) =>
      match t.fileTarget? dir path with
      | .ok loc => (t.set loc (.file (.text contents)), .ok ())
      | .error cause => (t, .error cause)

/-- Puts an entry at a path below a directory, with the directories on the way to it. -/
def place (t : FileTree) (cwd path : String) (e : Entry) : FileTree :=
  match e with
  | .directory => (t.makeDirectories (startOf cwd path) (Path.components path)).1
  | .file _ =>
    match t.makeDirectories (startOf cwd path) (Path.components path).dropLast with
    | (t, some dir) =>
      match (Path.components path).getLast? with
      | some name => t.set (dir ++ [name]) e
      | none => t
    | (t, none) => t

/-! ## Listing files -/

/-- The path of a location relative to a directory above it. -/
def relative? (dir loc : Location) : Option String :=
  if dir.isPrefixOf loc ∧ dir.length < loc.length then
    some ("/".intercalate (loc.drop dir.length))
  else none

/-- The files below a directory with their relative paths, sorted by path. -/
def filesBelow (t : FileTree) (dir : Location) : List (String × Contents) :=
  (t.entries.filterMap fun (loc, e) ↦
    match e, relative? dir loc with
    | .file c, some path => some (path, c)
    | _, _ => none).mergeSort fun a b ↦ decide (a.1 ≤ b.1)

/-- The files below a directory that are new or changed against an earlier tree. -/
def changesBelow (before after : FileTree) (dir : Location) : List (String × Contents) :=
  let old := before.filesBelow dir
  (after.filesBelow dir).filter fun f ↦ !old.contains f

/-! ## A change is seen at its location and nowhere else -/

private theorem lookup_filter_ne {α : Type} (entries : List (Location × α)) {loc loc' : Location}
    (h : loc' ≠ loc) :
    (entries.filter fun x ↦ x.1 ≠ loc).lookup loc' = entries.lookup loc' := by
  induction entries with
  | nil => rfl
  | cons x xs ih =>
    obtain ⟨k, v⟩ := x
    rw [List.filter_cons]
    by_cases hk : k = loc
    · have hb : (loc' == k) = false := beq_false_of_ne (hk ▸ h)
      rw [if_neg (by simp [hk]), ih, List.lookup_cons, hb]
    · rw [if_pos (by simp [hk]), List.lookup_cons, List.lookup_cons, ih]

theorem lookup?_set_self (t : FileTree) {loc : Location} (h : loc ≠ []) (e : Entry) :
    (t.set loc e).lookup? loc = some e := by
  simp [lookup?, set, h]

theorem lookup?_set_of_ne (t : FileTree) {loc loc' : Location} (h : loc' ≠ loc) (e : Entry) :
    (t.set loc e).lookup? loc' = t.lookup? loc' := by
  by_cases h' : loc' = []
  · simp [lookup?, h']
  · simp only [lookup?, set, h', if_false]
    have hb : (loc' == loc) = false := beq_false_of_ne h
    rw [List.lookup_cons, hb]
    exact lookup_filter_ne _ h

end FileTree

end BarBridge
