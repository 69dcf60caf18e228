/-!
# Paths

A path is text whose segments are separated by slashes. What it denotes is decided by its
components: the segments other than the empty one and the single dot. Two dots are a component,
since what they denote depends on the tree. A path whose last segment is empty or made of dots can
only denote a directory.

Paths are shown to the user as they were put together, so joining keeps every character of both
parts.
-/

namespace BarBridge.Path

/-- The segments of a text between slashes, empty ones included. -/
def segments : List Char → List (List Char)
  | [] => [[]]
  | c :: cs =>
    if c = '/' then [] :: segments cs
    else
      match segments cs with
      | [] => [[c]]
      | s :: ss => (c :: s) :: ss

/-- The components of a path. -/
def components (path : String) : List String :=
  ((segments path.toList).filter fun s ↦ s ≠ [] ∧ s ≠ ['.']).map String.ofList

def isAbsolute (path : String) : Bool :=
  path.toList.head? == some '/'

/-- Whether the last segment of a path can only denote a directory. -/
def namesDirectory (path : String) : Bool :=
  match (segments path.toList).getLast? with
  | none | some [] | some ['.'] | some ['.', '.'] => true
  | _ => false

/-- The segments that remain of reversed ones when those that are no component are dropped from the
end. -/
def dropPlain (reversed : List (List Char)) : List (List Char) :=
  reversed.dropWhile fun s ↦ s == [] || s == ['.']

/-- What stands before the last component of a path, without slashes and single dots at its end. It
is empty where nothing stands before. -/
def parent (path : String) : String :=
  let before := dropPlain ((dropPlain (segments path.toList).reverse).drop 1)
  String.ofList (['/'].intercalate before.reverse)

/-- Whether a text has a NUL character in it. -/
def hasNul (s : String) : Bool :=
  s.toList.contains '\x00'

/-- Puts a slash behind a path, unless it is empty or has one. -/
def closed (path : String) : String :=
  if path = "" ∨ path.toList.getLast? = some '/' then path else path ++ "/"

/-- A path below another; an absolute path stands for itself. -/
def join (base path : String) : String :=
  if isAbsolute path then path else closed base ++ path

/-- The beginning of an absolute path. Two slashes are kept apart from one and from more. -/
def rootOf (path : String) : String :=
  match path.toList with
  | '/' :: '/' :: '/' :: _ => "/"
  | '/' :: '/' :: _ => "//"
  | _ => "/"

/-- A path from the root of the tree on, with the empty segments and single dots gone; two dots and
a slash at the end stay. The empty path stays empty. -/
def absolute (cwd path : String) : String :=
  if path = "" then ""
  else
    let base := if isAbsolute path then rootOf path else cwd
    let full := (components path).foldl (fun p c ↦ closed p ++ c) base
    if path.toList.getLast? = some '/' then closed full else full

end BarBridge.Path
