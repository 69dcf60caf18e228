import BarBridge.Toml.Scalar
import BarBridge.Toml.Table

/-!
# Reading a TOML document

A document is a list of lines, each a key with its value, a header or nothing; comments end any
line, and a byte order mark at the very beginning is passed over. Keys before the first header
belong to the document itself, those behind a header to the table that it names. Arrays and tables
between brackets may take several lines.

Fractions, truth values, dates and tables in arrays exist in the language, but no setting has them,
so a text that uses them is refused here like one that is malformed.

Every line uses up at least one character and every bracket one, so the length of the text bounds
the steps of each reader.
-/

namespace BarBridge.Toml

/-- The rest behind the end of a line; the end of the text is one. -/
def lineEnd? : List Char → Option (List Char)
  | [] => some []
  | '\n' :: cs => some cs
  | '\r' :: '\n' :: cs => some cs
  | _ => none

/-- The rest behind blanks, a comment if there is one, and the end of the line. -/
def restOfLine? (cs : List Char) : Option (List Char) :=
  match cs.dropWhile isSpace with
  | '#' :: cs => lineEnd? (cs.dropWhile fun c ↦ !isControl c)
  | cs => lineEnd? cs

/-- The rest behind blanks, line ends and comments, which may stand between brackets. The flag says
whether the text begins inside a comment. -/
def skipFill? : Bool → List Char → Option (List Char)
  | _, [] => some []
  | inComment, c :: cs =>
    if c = '\n' then skipFill? false cs
    else if c = '\r' && cs.head? = some '\n' then skipFill? inComment cs
    else if inComment then if isControl c then none else skipFill? true cs
    else if isSpace c then skipFill? false cs
    else if c = '#' then skipFill? true cs
    else some (c :: cs)

/-! ## Values -/

/-- An integer or a string, and the rest behind it. -/
def scalar? : List Char → Option (Value × List Char)
  | '"' :: '"' :: '"' :: cs =>
    (multiBasic? [] .plain (dropLineEnd cs)).map fun (s, rest) ↦
      (.string (String.ofList s), rest)
  | '\'' :: '\'' :: '\'' :: cs =>
    (multiLiteral? [] (dropLineEnd cs)).map fun (s, rest) ↦ (.string (String.ofList s), rest)
  | '"' :: cs => (basic? [] .plain cs).map fun (s, rest) ↦ (.string (String.ofList s), rest)
  | '\'' :: cs => (literal? [] cs).map fun (s, rest) ↦ (.string (String.ofList s), rest)
  | cs =>
    (integer? (cs.takeWhile isBareValue)).map fun n ↦ (.integer n, cs.dropWhile isBareValue)

mutual

/-- A value and the rest behind it. -/
def value? : Nat → List Char → Option (Value × List Char)
  | 0, _ => none
  | fuel + 1, '[' :: cs => do items? fuel [] (← skipFill? false cs)
  | fuel + 1, '{' :: cs => do members? fuel [] (← skipFill? false cs)
  | _ + 1, cs => scalar? cs

/-- The rest of an array, with the items before it newest first. A comma may stand behind the last
item. -/
def items? : Nat → List Value → List Char → Option (Value × List Char)
  | 0, _, _ => none
  | _ + 1, done, ']' :: cs => some (.array done.reverse, cs)
  | fuel + 1, done, cs => do
    let (v, cs) ← value? fuel cs
    match ← skipFill? false cs with
    | ',' :: cs => items? fuel (v :: done) (← skipFill? false cs)
    | ']' :: cs => some (.array (v :: done).reverse, cs)
    | _ => none

/-- The rest of a table between braces, with the members before it. A comma may stand behind the
last member. Only a key with its dots is kept on one line. -/
def members? : Nat → Members → List Char → Option (Value × List Char)
  | 0, _, _ => none
  | _ + 1, done, '}' :: cs => some (.table .braces done, cs)
  | fuel + 1, done, cs => do
    let (key, cs) ← dottedKey? cs
    match ← skipFill? false cs with
    | '=' :: cs =>
      let (v, cs) ← value? fuel (← skipFill? false cs)
      let done ← done.define? v key
      match ← skipFill? false cs with
      | ',' :: cs => members? fuel done (← skipFill? false cs)
      | '}' :: cs => some (.table .braces done, cs)
      | _ => none
    | _ => none

end

/-! ## Lines -/

/-- A key, an equals sign, a value and the end of the line. -/
def entry? (cs : List Char) : Option ((List String × Value) × List Char) := do
  let (key, cs) ← dottedKey? cs
  match cs.dropWhile isSpace with
  | '=' :: cs =>
    let (v, cs) ← value? (2 * cs.length + 2) (cs.dropWhile isSpace)
    return ((key, v), ← restOfLine? cs)
  | _ => none

/-- A header behind its opening bracket, and the end of the line. -/
def header? (cs : List Char) : Option (List String × List Char) := do
  let (key, cs) ← dottedKey? (cs.dropWhile isSpace)
  match cs.dropWhile isSpace with
  | ']' :: cs => return (key, ← restOfLine? cs)
  | _ => none

/-- The document after at most so many further lines, `here` being the table that they add to. -/
def lines? : Nat → List String → Members → List Char → Option Members
  | _, _, document, [] => some document
  | 0, _, _, _ => none
  | fuel + 1, here, document, cs =>
    match restOfLine? cs with
    | some rest => lines? fuel here document rest
    | none =>
      match cs.dropWhile isSpace with
      | '[' :: cs => do
        let (key, rest) ← header? cs
        lines? fuel key (← document.openTable? key) rest
      | cs => do
        let ((key, v), rest) ← entry? cs
        lines? fuel here (← document.defineIn? key v here) rest

/-- The members of a whole document. -/
def parse (text : List Char) : Option Members :=
  let cs := if text.head? = some '\uFEFF' then text.drop 1 else text
  lines? cs.length [] [] cs

end BarBridge.Toml
