import BarBridge.Json.Fault
import BarBridge.Json.Numeral
import BarBridge.Text.Blank

/-!
# Tokens of a JSON text

A text is cut into tokens by a machine that reads one character at a time. Its state says what is
still owed: nothing between two tokens, the letters missing from a keyword, the next digit of a
numeral, the end of a string. `Scan.step` is a plain function of state, position and character, so
reading a text is a structural recursion over its characters, and a statement about a run is an
induction over the text with the state generalised.

## Faults are tokens

Which fault a text has depends on what was expected at its place: a stray letter is a missing value
after `[` and a missing comma after `[1`. The machine therefore reports what stands in the text, and
leaves it to the reader to say what should have stood there. A numeral or string that is broken
inside carries its own fault, to be reported where a value was expected at all. Nothing is read
beyond the first broken token, because no reader goes beyond it.
-/

namespace BarBridge.Json

inductive Token where
  | openArray
  | closeArray
  | openObject
  | closeObject
  | comma
  | colon
  /-- A string literal, decoded. -/
  | string (value : Except Fault String)
  /-- A keyword or a numeral. -/
  | scalar (value : Except Fault Json)
  /-- A character that begins no token. -/
  | stray
  deriving Repr

/-- A token and the number of bytes before it. -/
structure Placed where
  start : Nat
  token : Token
  deriving Repr

/-- How far a numeral has been read. -/
inductive Stage where
  /-- A minus; a digit must follow. -/
  | sign
  /-- A leading zero; no digit may follow. -/
  | zero
  | whole
  /-- A point; a digit must follow. -/
  | point
  | fraction
  /-- The mark of a power; a sign or digit must follow. -/
  | mark
  /-- The sign of a power; a digit must follow. -/
  | markSign
  | power
  deriving DecidableEq, Repr

/-- A numeral under way, the digits of each part newest first. -/
structure Draft where
  negative : Bool
  whole : List Nat
  fraction : List Nat
  powerNegative : Bool
  power : List Nat
  deriving DecidableEq, Repr

/-- The state of the machine. Characters of a string are kept newest first. -/
inductive Scan where
  /-- Between two tokens. -/
  | gap
  /-- In a keyword, with these letters owed. -/
  | keyword (start : Nat) (owed : List Char) (value : Json)
  | numeral (start : Nat) (stage : Stage) (digits : Draft)
  | string (start : Nat) (done : List Char)
  /-- After a backslash. -/
  | escape (start : Nat) (done : List Char)
  /-- In the four bytes of a `\u` escape that begin at `first`; `code` is what the hexadecimal
  digits so far denote, and `high` the first half of a surrogate pair. -/
  | hex (start : Nat) (done : List Char) (high : Option Nat) (first : Nat) (code : Option Nat)
  /-- After the first half of a surrogate pair, with a backslash or, behind it, a `u` owed. -/
  | pair (start : Nat) (done : List Char) (high : Nat) (slash : Bool)
  /-- Behind a broken token. -/
  | halted
  deriving Repr

namespace Draft

/-- A numeral of which nothing but the sign is known. -/
def begin (negative : Bool) : Draft :=
  ⟨negative, [], [], false, []⟩

/-- The parts of a numeral that is complete at the given stage. -/
def finish (p : Draft) (stage : Stage) : Numeral where
  negative := p.negative
  whole := p.whole.reverse
  fraction := p.fraction.reverse
  power := if stage = .power then some (p.powerNegative, p.power.reverse) else none

end Draft

/-- Whether a numeral may end at a stage. -/
def Stage.complete : Stage → Bool
  | zero | whole | fraction | power => true
  | sign | point | mark | markSign => false

/-- A numeral after one more character: `none` if the character does not belong to it. -/
def Stage.next (stage : Stage) (p : Draft) (c : Char) : Option (Stage × Draft) :=
  if c.isDigit then
    let d := c.toNat - '0'.toNat
    match stage with
    | sign =>
      if d = 0 then some (zero, { p with whole := [0] }) else some (whole, { p with whole := [d] })
    | zero => none
    | whole => some (whole, { p with whole := d :: p.whole })
    | point | fraction => some (fraction, { p with fraction := d :: p.fraction })
    | mark | markSign | power => some (power, { p with power := d :: p.power })
  else if c = '.' then
    match stage with
    | zero | whole => some (point, p)
    | _ => none
  else if c = 'e' ∨ c = 'E' then
    match stage with
    | zero | whole | fraction => some (mark, p)
    | _ => none
  else if c = '+' ∨ c = '-' then
    match stage with
    | mark => some (markSign, { p with powerNegative := c == '-' })
    | _ => none
  else none

/-- The token of a numeral that ends before byte `stop`. -/
def Draft.token (p : Draft) (stage : Stage) (stop : Nat) : Token :=
  match (p.finish stage).value with
  | .ok n => .scalar (.ok (.number n))
  | .error unread => .scalar (.error ⟨.numeralTooLarge, stop - unread⟩)

/-- The value of a hexadecimal digit. -/
def hexDigit? (c : Char) : Option Nat :=
  if '0' ≤ c ∧ c ≤ '9' then some (c.toNat - '0'.toNat)
  else if 'a' ≤ c ∧ c ≤ 'f' then some (c.toNat - 'a'.toNat + 10)
  else if 'A' ≤ c ∧ c ≤ 'F' then some (c.toNat - 'A'.toNat + 10)
  else none

/-- The character that a backslash and a letter stand for. -/
def simpleEscape? : Char → Option Char
  | '"' => some '"'
  | '\\' => some '\\'
  | '/' => some '/'
  | 'b' => some '\x08'
  | 'f' => some '\x0c'
  | 'n' => some '\n'
  | 'r' => some '\r'
  | 't' => some '\t'
  | _ => none

namespace Scan

/-- What one character does: the tokens completed by it and the state after it. -/
abbrev Step := List Placed × Scan

/-- A string that is broken at byte `index`. -/
def breakString (start : Nat) (cause : Cause) (index : Nat) : Step :=
  ([⟨start, .string (.error ⟨cause, index⟩)⟩], halted)

/-- A keyword or numeral that is broken at byte `index`. -/
def breakScalar (start : Nat) (cause : Cause) (index : Nat) : Step :=
  ([⟨start, .scalar (.error ⟨cause, index⟩)⟩], halted)

/-- The step between two tokens. -/
def stepGap (i : Nat) (c : Char) : Step :=
  if Text.isGap c then ([], gap)
  else if c.isDigit then
    match Stage.next .sign (.begin false) c with
    | some (stage, p) => ([], numeral i stage p)
    | none => ([⟨i, .stray⟩], halted)
  else
    match c with
    | '[' => ([⟨i, .openArray⟩], gap)
    | ']' => ([⟨i, .closeArray⟩], gap)
    | '{' => ([⟨i, .openObject⟩], gap)
    | '}' => ([⟨i, .closeObject⟩], gap)
    | ',' => ([⟨i, .comma⟩], gap)
    | ':' => ([⟨i, .colon⟩], gap)
    | '"' => ([], string i [])
    | '-' => ([], numeral i .sign (.begin true))
    | 'n' => ([], keyword i ['u', 'l', 'l'] .null)
    | 't' => ([], keyword i ['r', 'u', 'e'] (.bool true))
    | 'f' => ([], keyword i ['a', 'l', 's', 'e'] (.bool false))
    | _ => ([⟨i, .stray⟩], halted)

/-- The step in a numeral. A character that does not belong to it ends it, and is read again. -/
def stepNumeral (start : Nat) (stage : Stage) (p : Draft) (i : Nat) (c : Char) : Step :=
  match stage.next p c with
  | some (stage, p) => ([], numeral start stage p)
  | none =>
    if stage.complete && !(stage == .zero && c.isDigit) then
      let (placed, state) := stepGap i c
      (⟨start, p.token stage i⟩ :: placed, state)
    else breakScalar start .numeralMalformed (i + 1)

/-- The step with the four bytes of a `\u` escape complete. -/
def stepCode (start : Nat) (done : List Char) (high : Option Nat) (stop : Nat) :
    Option Nat → Step
  | none => breakString start .escapeUnknown stop
  | some code =>
    match high with
    | none =>
      if 0xDC00 ≤ code ∧ code ≤ 0xDFFF then breakString start .surrogateAlone stop
      else if 0xD800 ≤ code ∧ code ≤ 0xDBFF then ([], pair start done code true)
      else ([], string start (Char.ofNat code :: done))
    | some high =>
      if 0xDC00 ≤ code ∧ code ≤ 0xDFFF then
        let code := 0x10000 + (high - 0xD800) * 0x400 + (code - 0xDC00)
        ([], string start (Char.ofNat code :: done))
      else breakString start .surrogateAlone stop

/-- The step inside the four bytes of a `\u` escape. A character of several bytes is no digit; the
escape ends with its fourth byte all the same. -/
def stepHex (start : Nat) (done : List Char) (high : Option Nat) (first : Nat) (code : Option Nat)
    (i : Nat) (c : Char) : Step :=
  let code := do return 16 * (← code) + (← hexDigit? c)
  if first + 4 ≤ i + c.utf8Size then stepCode start done high (first + 4) code
  else ([], hex start done high first code)

/-- The step of the machine at a character with `i` bytes before it. -/
def step (state : Scan) (i : Nat) (c : Char) : Step :=
  match state with
  | gap => stepGap i c
  | keyword start [] value =>
    let (placed, state) := stepGap i c
    (⟨start, .scalar (.ok value)⟩ :: placed, state)
  | keyword start (letter :: owed) value =>
    if c = letter then ([], keyword start owed value)
    else breakScalar start .keywordExpected (i + 1)
  | numeral start stage p => stepNumeral start stage p i c
  | string start done =>
    if c = '"' then ([⟨start, .string (.ok (String.ofList done.reverse))⟩], gap)
    else if c = '\\' then ([], escape start done)
    else if c.toNat < 0x20 then breakString start .controlCharacter (i + 1)
    else ([], string start (c :: done))
  | escape start done =>
    if c = 'u' then ([], hex start done none (i + 1) (some 0))
    else
      match simpleEscape? c with
      | some c => ([], string start (c :: done))
      | none => breakString start .escapeUnknown (i + 1)
  | hex start done high first code => stepHex start done high first code i c
  | pair start done high true =>
    if c = '\\' then ([], pair start done high false)
    else breakString start .surrogateCut (i + 1)
  | pair start done high false =>
    if c = 'u' then ([], hex start done (some high) (i + 1) (some 0))
    else breakString start .surrogateCut (i + 1)
  | halted => ([], halted)

/-- The tokens completed by the end of the text, which has `total` bytes. -/
def finish (state : Scan) (total : Nat) : List Placed :=
  match state with
  | gap | halted => []
  | keyword start [] value => [⟨start, .scalar (.ok value)⟩]
  | keyword start _ _ => [⟨start, .scalar (.error ⟨.endInValue, total⟩)⟩]
  | numeral start stage p =>
    if stage.complete then [⟨start, p.token stage total⟩]
    else [⟨start, .scalar (.error ⟨.endInValue, total⟩)⟩]
  | string start _ | escape start _ | hex start _ _ _ _ | pair start _ _ _ =>
    [⟨start, .string (.error ⟨.endInString, total⟩)⟩]

/-- The tokens of a text read from a given state, with `i` bytes before it. -/
def run (state : Scan) (i : Nat) : List Char → List Placed
  | [] => state.finish i
  | c :: cs =>
    let (placed, state) := state.step i c
    placed ++ run state (i + c.utf8Size) cs

end Scan

/-- The tokens of a text, with their places. -/
def tokens (text : List Char) : List Placed :=
  Scan.gap.run 0 text

end BarBridge.Json
