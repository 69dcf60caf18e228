import BarBridge.Json.Token
import BarBridge.Text.Bytes

/-!
# Reading a JSON value

The tokens of a text are read one after the other by a machine with a stack. The stack holds the
arrays and objects that are open around the present place, each with what it has collected so far;
beside it stands what may come next. One token makes one step, so reading is a structural recursion
over the tokens, and every value that is complete is handed to the innermost open container.

At most `depthLimit` containers may be open at a time.
-/

namespace BarBridge.Json

/-- An array or object that is open around a value being read, with what it holds so far; items
newest first. -/
inductive Frame where
  | array (items : List Json)
  | object (members : List (String × Json)) (key : String)
  deriving Repr

/-- What may come next. -/
inductive Awaited where
  | value
  /-- Behind `[`: an item or the end. -/
  | firstItem
  /-- Behind a comma: an item. -/
  | laterItem (items : List Json)
  /-- Behind an item: a comma or the end. -/
  | itemEnd (items : List Json)
  /-- Behind `{`: a key or the end. -/
  | firstKey
  /-- Behind a comma: a key. -/
  | laterKey (members : List (String × Json))
  | colon (members : List (String × Json)) (key : String)
  /-- Behind a member: a comma or the end. -/
  | memberEnd (members : List (String × Json))
  /-- Nothing: the document is complete. -/
  | nothing (document : Json)
  deriving Repr

structure Reader where
  awaited : Awaited
  stack : List Frame
  deriving Repr

/-- The number of containers that may be open at a time. -/
def depthLimit : Nat := 127

namespace Reader

/-- Before the first token. -/
def initial : Reader :=
  ⟨.value, []⟩

/-- Hands a complete value to the innermost open container. -/
def deliver (v : Json) : List Frame → Reader
  | [] => ⟨.nothing v, []⟩
  | .array items :: stack => ⟨.itemEnd (v :: items), stack⟩
  | .object members key :: stack => ⟨.memberEnd (put key v members), stack⟩

/-- Opens a container inside those of the stack. -/
def enter (awaited : Awaited) (stack : List Frame) (start : Nat) : Except Fault Reader :=
  if stack.length < depthLimit then .ok ⟨awaited, stack⟩
  else .error ⟨.nestedTooDeep, start + 1⟩

/-- Reads the token at the beginning of a value. -/
def beginValue (stack : List Frame) (p : Placed) : Except Fault Reader :=
  match p.token with
  | .openArray => enter .firstItem stack p.start
  | .openObject => enter .firstKey stack p.start
  | .string (.ok s) => .ok (deliver (.string s) stack)
  | .scalar (.ok v) => .ok (deliver v stack)
  | .string (.error f) | .scalar (.error f) => .error f
  | _ => .error ⟨.valueExpected, p.start + 1⟩

/-- Reads the token at the place of a key. -/
def beginMember (members : List (String × Json)) (stack : List Frame) (p : Placed) :
    Except Fault Reader :=
  match p.token with
  | .string (.ok key) => .ok ⟨.colon members key, stack⟩
  | .string (.error f) => .error f
  | _ => .error ⟨.keyExpected, p.start + 1⟩

/-- Reads one token. -/
def step (r : Reader) (p : Placed) : Except Fault Reader :=
  match r.awaited, p.token with
  | .value, _ => beginValue r.stack p
  | .firstItem, .closeArray => .ok (deliver (.array []) r.stack)
  | .firstItem, _ => beginValue (.array [] :: r.stack) p
  | .laterItem _, .closeArray => .error ⟨.danglingComma, p.start + 1⟩
  | .laterItem items, _ => beginValue (.array items :: r.stack) p
  | .itemEnd items, .closeArray => .ok (deliver (.array items.reverse) r.stack)
  | .itemEnd items, .comma => .ok ⟨.laterItem items, r.stack⟩
  | .itemEnd _, _ => .error ⟨.itemEndExpected, p.start + 1⟩
  | .firstKey, .closeObject => .ok (deliver (.object []) r.stack)
  | .firstKey, _ => beginMember [] r.stack p
  | .laterKey _, .closeObject => .error ⟨.danglingComma, p.start + 1⟩
  | .laterKey members, _ => beginMember members r.stack p
  | .colon members key, .colon => .ok ⟨.value, .object members key :: r.stack⟩
  | .colon _ _, _ => .error ⟨.colonExpected, p.start + 1⟩
  | .memberEnd members, .closeObject => .ok (deliver (.object members) r.stack)
  | .memberEnd members, .comma => .ok ⟨.laterKey members, r.stack⟩
  | .memberEnd _, _ => .error ⟨.memberEndExpected, p.start + 1⟩
  | .nothing _, _ => .error ⟨.furtherText, p.start + 1⟩

/-- The document, if it is complete where the text ends. -/
def finish (r : Reader) (total : Nat) : Except Fault Json :=
  match r.awaited with
  | .nothing v => .ok v
  | .value | .laterItem _ | .laterKey _ => .error ⟨.endInValue, total⟩
  | .firstItem | .itemEnd _ => .error ⟨.endInArray, total⟩
  | .firstKey | .colon _ _ | .memberEnd _ => .error ⟨.endInObject, total⟩

/-- Reads the tokens of a text of `total` bytes. -/
def run (total : Nat) (r : Reader) : List Placed → Except Fault Json
  | [] => r.finish total
  | p :: ps =>
    match r.step p with
    | .ok r => run total r ps
    | .error f => .error f

end Reader

/-- Reads a whole text as one JSON value. -/
def parse (text : List Char) : Except Fault Json :=
  Reader.initial.run (Text.byteCount text) (tokens text)

end BarBridge.Json
