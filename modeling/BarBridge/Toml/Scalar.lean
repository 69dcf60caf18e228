import BarBridge.Json.Token

/-!
# Integers, strings and keys of TOML

The smallest parts of a settings file. Integers are written in four bases, with underscores between
digits. Strings come in four kinds: with or without escapes, on one line or on several. A key is
bare or quoted, and a key with dots is a list of such keys that leads from table to table.

Every reader takes the text from its place on and answers what it has read together with the rest;
`none` is a text that is malformed there.
-/

namespace BarBridge.Toml

/-- Blanks within a line. -/
def isSpace (c : Char) : Bool :=
  c == ' ' || c == '\t'

/-- Control characters, which stand in no comment and no string; a tab is none. -/
def isControl (c : Char) : Bool :=
  (c.toNat < 0x20 && c != '\t') || c.toNat == 0x7F

/-- Characters of a bare key. -/
def isBareKey (c : Char) : Bool :=
  c.isAlphanum || c == '_' || c == '-'

/-- Characters of an unquoted value. -/
def isBareValue (c : Char) : Bool :=
  c.isAlphanum || c == '_' || c == '+' || c == '-'

/-! ## Integers -/

/-- Digits of a base, underscores between them allowed, after a number already read. The flag says
whether a digit comes before. -/
def digits? (base : Nat) (before : Nat) (afterDigit : Bool) : List Char → Option Nat
  | [] => if afterDigit then some before else none
  | '_' :: cs => if afterDigit then digits? base before false cs else none
  | c :: cs =>
    match Json.hexDigit? c with
    | some d => if d < base then digits? base (base * before + d) true cs else none
    | none => none

/-- Decimal digits without a leading zero. -/
def decimal? : List Char → Option Nat
  | ['0'] => some 0
  | '0' :: _ => none
  | cs => digits? 10 0 false cs

/-- An integer. Only decimal ones have a sign. -/
def integer? : List Char → Option Int
  | '0' :: 'x' :: cs => (digits? 16 0 false cs).map Int.ofNat
  | '0' :: 'o' :: cs => (digits? 8 0 false cs).map Int.ofNat
  | '0' :: 'b' :: cs => (digits? 2 0 false cs).map Int.ofNat
  | '+' :: cs => (decimal? cs).map Int.ofNat
  | '-' :: cs => (decimal? cs).map fun n ↦ -Int.ofNat n
  | cs => (decimal? cs).map Int.ofNat

/-! ## Strings -/

/-- The character that a backslash and a letter stand for. -/
def simpleEscape? : Char → Option Char
  | 'b' => some '\x08'
  | 't' => some '\t'
  | 'n' => some '\n'
  | 'f' => some '\x0c'
  | 'r' => some '\r'
  | 'e' => some '\x1b'
  | '"' => some '"'
  | '\\' => some '\\'
  | _ => none

/-- The number of hexadecimal digits behind a backslash and a letter. -/
def codeLength? : Char → Option Nat
  | 'x' => some 2
  | 'u' => some 4
  | 'U' => some 8
  | _ => none

/-- A character given by its code point, which is no surrogate. -/
def ofCode? (n : Nat) : Option Char :=
  if h : n.isValidChar then some (Char.ofNatAux n h) else none

/-- Where the reader of a string with escapes stands. -/
inductive Spot where
  | plain
  /-- Behind a backslash. -/
  | escape
  /-- In an escape by number, with this many digits owed. -/
  | code (owed : Nat) (value : Nat)
  /-- Behind a backslash and blanks, with a line end owed. -/
  | toLineEnd
  /-- Behind a line end that a backslash took away, where blanks and line ends go too. -/
  | joined

/-- A string with escapes on one line, up to its quote, and the rest; characters newest first. -/
def basic? (done : List Char) : Spot → List Char → Option (List Char × List Char)
  | .plain, '"' :: cs => some (done.reverse, cs)
  | .plain, '\\' :: cs => basic? done .escape cs
  | .plain, c :: cs => if isControl c then none else basic? (c :: done) .plain cs
  | .escape, c :: cs =>
    match simpleEscape? c, codeLength? c with
    | some e, _ => basic? (e :: done) .plain cs
    | none, some n => basic? done (.code n 0) cs
    | none, none => none
  | .code owed value, c :: cs =>
    match Json.hexDigit? c with
    | none => none
    | some d =>
      if owed ≤ 1 then
        match ofCode? (16 * value + d) with
        | some e => basic? (e :: done) .plain cs
        | none => none
      else basic? done (.code (owed - 1) (16 * value + d)) cs
  | _, _ => none

/-- A string without escapes on one line, up to its quote, and the rest. -/
def literal? (done : List Char) : List Char → Option (List Char × List Char)
  | '\'' :: cs => some (done.reverse, cs)
  | c :: cs => if isControl c then none else literal? (c :: done) cs
  | [] => none

/-- The end of a string of several lines: three quotes close it, and up to two more before them
belong to it. -/
def closing? (quote : Char) (done : List Char) (cs : List Char) :
    Option (List Char × List Char) :=
  let quotes := cs.takeWhile (· == quote)
  if quotes.length < 3 then none
  else
    let inside := min (quotes.length - 3) 2
    some (done.reverse ++ List.replicate inside quote, cs.drop (inside + 3))

/-- A string with escapes on several lines, behind its opening. -/
def multiBasic? (done : List Char) : Spot → List Char → Option (List Char × List Char)
  | .plain, c :: cs =>
    if c = '"' then
      match closing? '"' done (c :: cs) with
      | some r => some r
      | none => multiBasic? (c :: done) .plain cs
    else if c = '\\' then multiBasic? done .escape cs
    else if c = '\r' then
      if cs.head? = some '\n' then multiBasic? (c :: done) .plain cs else none
    else if c = '\n' || !isControl c then multiBasic? (c :: done) .plain cs
    else none
  | .escape, c :: cs =>
    match simpleEscape? c, codeLength? c with
    | some e, _ => multiBasic? (e :: done) .plain cs
    | none, some n => multiBasic? done (.code n 0) cs
    | none, none =>
      if c = '\n' then multiBasic? done .joined cs
      else if isSpace c || (c = '\r' && cs.head? = some '\n') then multiBasic? done .toLineEnd cs
      else none
  | .toLineEnd, c :: cs =>
    if c = '\n' then multiBasic? done .joined cs
    else if isSpace c || (c = '\r' && cs.head? = some '\n') then multiBasic? done .toLineEnd cs
    else none
  | .joined, c :: cs =>
    if isSpace c || c = '\n' || (c = '\r' && cs.head? = some '\n') then
      multiBasic? done .joined cs
    else if c = '"' then
      match closing? '"' done (c :: cs) with
      | some r => some r
      | none => multiBasic? (c :: done) .plain cs
    else if c = '\\' then multiBasic? done .escape cs
    else if isControl c then none
    else multiBasic? (c :: done) .plain cs
  | .code owed value, c :: cs =>
    match Json.hexDigit? c with
    | none => none
    | some d =>
      if owed ≤ 1 then
        match ofCode? (16 * value + d) with
        | some e => multiBasic? (e :: done) .plain cs
        | none => none
      else multiBasic? done (.code (owed - 1) (16 * value + d)) cs
  | _, [] => none

/-- A string without escapes on several lines, behind its opening. -/
def multiLiteral? (done : List Char) : List Char → Option (List Char × List Char)
  | [] => none
  | c :: cs =>
    if c = '\'' then
      match closing? '\'' done (c :: cs) with
      | some r => some r
      | none => multiLiteral? (c :: done) cs
    else if c = '\r' then
      if cs.head? = some '\n' then multiLiteral? (c :: done) cs else none
    else if c = '\n' || !isControl c then multiLiteral? (c :: done) cs
    else none

/-- A text without a line end at its beginning. -/
def dropLineEnd (cs : List Char) : List Char :=
  match cs with
  | '\n' :: cs => cs
  | '\r' :: '\n' :: cs => cs
  | cs => cs

/-! ## Keys -/

/-- A key and the rest behind it. -/
def key? : List Char → Option (String × List Char)
  | '"' :: cs => (basic? [] .plain cs).map fun (k, rest) ↦ (String.ofList k, rest)
  | '\'' :: cs => (literal? [] cs).map fun (k, rest) ↦ (String.ofList k, rest)
  | cs =>
    let k := cs.takeWhile isBareKey
    if k = [] then none else some (String.ofList k, cs.dropWhile isBareKey)

/-- The keys between dots, blanks around the dots allowed, and the rest behind the last. The fuel is
a bound on the number of keys. -/
def path? : Nat → List Char → Option (List String × List Char)
  | 0, _ => none
  | fuel + 1, cs => do
    let (k, rest) ← key? cs
    match rest.dropWhile isSpace with
    | '.' :: cs =>
      let (ks, rest) ← path? fuel (cs.dropWhile isSpace)
      return (k :: ks, rest)
    | _ => return ([k], rest)

/-- A key with any number of dots, and the rest behind it. -/
def dottedKey? (cs : List Char) : Option (List String × List Char) :=
  path? cs.length cs

end BarBridge.Toml
