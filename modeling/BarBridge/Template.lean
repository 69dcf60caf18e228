/-!
# Templates

A template is plain text with holes. A hole is a name between double braces, blanks around the name
allowed; `Template.parse` cuts a text into pieces, and a text with a hole that is empty, unclosed or
holds anything but one name is no template. The openings of other kinds of tag are refused as well.

A few words are no names. The two flags and the absent value stand for themselves, with a capital or
without, whatever values there are; and `not` asks for something behind it, so a hole with nothing
else is malformed.

Values are put into the holes as they are. They are never read again, so a value that looks like a
hole is text, and whoever fills a template escapes values for the place they go to. A name without a
value is an error rather than an empty text. Four names are those of the engine's functions and never
lack a value: where none is given, a hole shows what the function is called.
-/

namespace BarBridge

namespace Template

/-- A part of a template. -/
inductive Piece where
  | text (chars : List Char)
  | hole (name : String)
  deriving DecidableEq, Repr

/-- A value for a hole. -/
inductive Value where
  | text (s : String)
  | integer (i : Int)
  | flag (b : Bool)
  deriving DecidableEq, Repr

/-- The text of a value. Flags are written with a capital. -/
def Value.write : Value → List Char
  | text s => s.toList
  | integer i => (toString i).toList
  | flag true => ['T', 'r', 'u', 'e']
  | flag false => ['F', 'a', 'l', 's', 'e']

/-- The piece that a word between braces makes, `none` being a word that needs another. -/
def pieceOf? : List Char → Option Piece
  | ['t', 'r', 'u', 'e'] | ['T', 'r', 'u', 'e'] => some (.text (Value.flag true).write)
  | ['f', 'a', 'l', 's', 'e'] | ['F', 'a', 'l', 's', 'e'] => some (.text (Value.flag false).write)
  | ['n', 'o', 'n', 'e'] | ['N', 'o', 'n', 'e'] => some (.text ['N', 'o', 'n', 'e'])
  | ['n', 'o', 't'] => none
  | name => some (.hole (String.ofList name))

/-- Blanks allowed inside a hole. -/
def isHoleBlank (c : Char) : Bool :=
  c == ' ' || c == '\t' || c == '\n' || c == '\r' || c == '\x0c'

/-- Characters that begin a name. -/
def isNameStart (c : Char) : Bool :=
  c.isAlpha || c == '_'

/-- Characters that continue a name. -/
def isNameRest (c : Char) : Bool :=
  c.isAlphanum || c == '_'

/-- Where the reader of a template stands; characters read are kept newest first. -/
inductive Spot where
  | text (read : List Char)
  /-- In a hole, before its name. -/
  | beforeName
  | name (read : List Char)
  /-- In a hole, behind its name. -/
  | afterName (name : List Char)
  deriving Repr

/-- The piece of text read, if there is any, before other pieces. -/
def withText (read : List Char) (pieces : List Piece) : List Piece :=
  if read = [] then pieces else .text read.reverse :: pieces

/-- The piece of the word read before other pieces. -/
def withWord (read : List Char) (pieces : Option (List Piece)) : Option (List Piece) := do
  return (← pieceOf? read.reverse) :: (← pieces)

/-- The pieces of the rest of a template, or `none` if it is malformed. -/
def parseFrom : Spot → List Char → Option (List Piece)
  | .text read, '{' :: '{' :: cs => (parseFrom .beforeName cs).map (withText read)
  | .text _, '{' :: '%' :: _ => none
  | .text _, '{' :: '#' :: _ => none
  | .text read, c :: cs => parseFrom (.text (c :: read)) cs
  | .text read, [] => some (withText read [])
  | .beforeName, c :: cs =>
    if isHoleBlank c then parseFrom .beforeName cs
    else if isNameStart c then parseFrom (.name [c]) cs
    else none
  | .name read, '}' :: '}' :: cs => withWord read (parseFrom (.text []) cs)
  | .name read, c :: cs =>
    if isNameRest c then parseFrom (.name (c :: read)) cs
    else if isHoleBlank c then parseFrom (.afterName read) cs
    else none
  | .afterName read, '}' :: '}' :: cs => withWord read (parseFrom (.text []) cs)
  | .afterName read, c :: cs => if isHoleBlank c then parseFrom (.afterName read) cs else none
  | _, [] => none

/-- The pieces of a template, or `none` if it is malformed. -/
def parse (source : String) : Option (List Piece) :=
  parseFrom (.text []) source.toList

/-- The text of a template, or the first name that has no value. -/
def fill (values : List (String × Value)) : List Piece → Except String (List Char)
  | [] => .ok []
  | .text chars :: pieces => (fill values pieces).map (chars ++ ·)
  | .hole name :: pieces =>
    match values.lookup name with
    | some v => (fill values pieces).map (v.write ++ ·)
    | none => .error name

/-- The functions of the engine, and how each is shown. -/
def functions : List (String × Value) :=
  ["range", "dict", "debug", "namespace"].map fun name ↦
    (name, .text ("minijinja::functions::builtins::" ++ name))

/-- Why a template cannot be rendered. -/
inductive Cause where
  | malformed
  | unknown
  | undefined (name : String)
  deriving DecidableEq, Repr

structure Fault where
  template : String
  cause : Cause
  deriving DecidableEq, Repr

end Template

/-- Named templates, the latest of a name first. -/
structure TemplateSet where
  templates : List (String × List Template.Piece)
  deriving DecidableEq, Repr

namespace TemplateSet

/-- Adds a template; it takes the place of an earlier one of the same name. -/
def add (set : TemplateSet) (name source : String) : Except Template.Fault TemplateSet :=
  match Template.parse source with
  | some pieces => .ok ⟨(name, pieces) :: set.templates⟩
  | none => .error ⟨name, .malformed⟩

/-- Adds templates in order, up to the first that is malformed. -/
def addAll (set : TemplateSet) : List (String × String) → Except Template.Fault TemplateSet
  | [] => .ok set
  | (name, source) :: rest =>
    match set.add name source with
    | .ok set => addAll set rest
    | .error f => .error f

/-- The set of the given names and sources. -/
def ofList (templates : List (String × String)) : Except Template.Fault TemplateSet :=
  addAll ⟨[]⟩ templates

/-- The text of a template under given values, which go before the functions. -/
def render (set : TemplateSet) (name : String) (values : List (String × Template.Value)) :
    Except Template.Fault String :=
  match set.templates.lookup name with
  | none => .error ⟨name, .unknown⟩
  | some pieces =>
    match Template.fill (values ++ Template.functions) pieces with
    | .ok text => .ok (String.ofList text)
    | .error hole => .error ⟨name, .undefined hole⟩

end TemplateSet

end BarBridge
