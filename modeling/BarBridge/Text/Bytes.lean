/-!
# Bytes, lines and columns

Positions in a document are counted in bytes of its UTF-8 form, while the document itself is a list
of characters. This module relates the two: how many bytes a text takes, which characters fit into
a number of bytes, and which line and column a byte belongs to. A position that falls inside a
character is moved back to where the character begins, so no part of a character is ever shown.
-/

namespace BarBridge.Text

/-- The number of bytes of a text. -/
def byteCount : List Char → Nat
  | [] => 0
  | c :: cs => c.utf8Size + byteCount cs

/-- The longest beginning of a text that takes at most `n` bytes. -/
def takeBytes : Nat → List Char → List Char
  | _, [] => []
  | n, c :: cs => if c.utf8Size ≤ n then c :: takeBytes (n - c.utf8Size) cs else []

/-- The last character boundary at or before the `n`th byte. -/
def floorBoundary (text : List Char) (n : Nat) : Nat :=
  byteCount (takeBytes n text)

/-- The part of a text within `radius` bytes of `offset`, both ends moved back to a boundary. -/
def window (text : List Char) (offset radius : Nat) : List Char :=
  (takeBytes (offset + radius) text).drop (takeBytes (offset - radius) text).length

/-- A line, counted from one, and a number of bytes into it. -/
structure Position where
  line : Nat
  column : Nat
  deriving DecidableEq, Repr

/-- The position after `index` bytes, scanning from byte `offset` in line `line`, which began at
byte `start`. -/
def positionFrom (index line start offset : Nat) : List Char → Position
  | [] => ⟨line, index - start⟩
  | c :: cs =>
    if index ≤ offset then ⟨line, index - start⟩
    else if c = '\n' then positionFrom index (line + 1) (offset + 1) (offset + 1) cs
    else positionFrom index line start (offset + c.utf8Size) cs

/-- The line that the first `index` bytes of a text end in, and how far into it they reach. -/
def positionAt (text : List Char) (index : Nat) : Position :=
  positionFrom index 1 0 0 text

/-- The number of bytes of the first `n` lines, line ends included. -/
def lineStart : Nat → List Char → Nat
  | 0, _ => 0
  | _, [] => 0
  | n + 1, c :: cs => if c = '\n' then 1 + lineStart n cs else c.utf8Size + lineStart (n + 1) cs

/-- The character boundary at the byte that a position points to, its column being that of the last
byte read. -/
def offsetOf (text : List Char) (p : Position) : Nat :=
  floorBoundary text (lineStart (p.line - 1) text + (p.column - 1))

/-! ## What fits is a beginning, and fits -/

@[simp] theorem byteCount_nil : byteCount [] = 0 := rfl

@[simp] theorem byteCount_cons (c : Char) (cs : List Char) :
    byteCount (c :: cs) = c.utf8Size + byteCount cs := rfl

@[simp] theorem byteCount_append (a b : List Char) :
    byteCount (a ++ b) = byteCount a + byteCount b := by
  induction a with
  | nil => simp
  | cons c cs ih => simp [ih, Nat.add_assoc]

theorem takeBytes_isPrefix (n : Nat) (text : List Char) : takeBytes n text <+: text := by
  induction text generalizing n with
  | nil => simp [takeBytes]
  | cons c cs ih =>
    rw [takeBytes]
    split
    · exact (List.prefix_cons_inj c).2 (ih _)
    · exact List.nil_prefix

theorem byteCount_takeBytes_le (n : Nat) (text : List Char) : byteCount (takeBytes n text) ≤ n := by
  induction text generalizing n with
  | nil => simp [takeBytes]
  | cons c cs ih =>
    rw [takeBytes]
    split
    · have := ih (n - c.utf8Size)
      rw [byteCount_cons]
      omega
    · simp

end BarBridge.Text
