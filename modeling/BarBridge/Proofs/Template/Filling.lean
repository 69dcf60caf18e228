import BarBridge.Json.Writer
import BarBridge.Proofs.Json.Writing
import BarBridge.Proofs.Text.QmlLiteral
import BarBridge.Template
import BarBridge.Text.Lines

/-!
# Filled views

A view is a template of QML in which every hole has its place: the text in front of it names the
property or handler that the value is for. A layout lists these places as sockets, and `Filled` says
that a text is the template with its sockets served in order. What is to stand in a socket is stated
in terms of whoever reads the view, not of how the value was written: a literal has to be read back
as the text meant, and to end at the quote that the template has put behind the hole.

Of a fixed template only its layout has to be checked, by evaluation (`laidOut`). Everything else
holds of any values: `exists_filled`.
-/

namespace BarBridge.Template

open Text

/-! ## What a view says -/

/-- What has to stand in a hole. -/
inductive Slot where
  /-- Between quotes: a literal for a text. -/
  | literal (s : String)
  /-- A list of texts, as JSON. -/
  | list (items : List String)
  | integer (n : Nat)
  | flag (b : Bool)
  deriving Repr

/-- A place for a value: the end of the text in front of it, the name of the hole, and whether it
is for a literal. -/
structure Socket where
  label : String
  name : String
  quoted : Bool
  deriving DecidableEq, Repr

/-- `slot.Holds before written behind` says that `written` serves a slot where it stands between
`before` and `behind`. -/
inductive Slot.Holds : Slot → List Char → List Char → List Char → Prop where
  | literal {s : String} {before written behind : List Char}
      (hopen : before.getLast? = some '"')
      (hread : readLiteral (written ++ '"' :: behind) = some (s.toList, behind)) :
      Holds (.literal s) before written ('"' :: behind)
  | list {items : List String} {before written behind : List Char}
      (hread : Json.parse written = .ok (.array (items.map .string))) :
      Holds (.list items) before written behind
  | integer {n : Nat} {before behind : List Char} :
      Holds (.integer n) before (toString n).toList behind
  | flag {b : Bool} {before behind : List Char} :
      Holds (.flag b) before (Value.flag b).write behind

/-- `Filled slots sockets pieces text` says that `text` is the template with its holes filled, that
the holes are the sockets, in order, and that each holds what `slots` has under its name. -/
inductive Filled (slots : List (String × Slot)) : List Socket → List Piece → List Char → Prop where
  | last (chars : List Char) : Filled slots [] [.text chars] chars
  | hole {socket : Socket} {slot : Slot} {sockets : List Socket} {pieces : List Piece}
      {before written behind : List Char} (hlabel : socket.label.toList <:+ before)
      (hslot : slots.lookup socket.name = some slot) (hholds : slot.Holds before written behind) :
      Filled slots sockets pieces behind →
        Filled slots (socket :: sockets) (.text before :: .hole socket.name :: pieces)
          (before ++ (written ++ behind))

/-! ## The layout of a template -/

/-- Whether a slot is for a literal. -/
def Slot.isLiteral : Slot → Bool
  | literal _ => true
  | _ => false

/-- Whether the text in front of a hole ends with a quote and the text behind it begins with one. -/
def isQuoted (before : List Char) : List Piece → Bool
  | .text ('"' :: _) :: _ => before.getLast? == some '"'
  | _ => false

theorem isQuoted_iff {before : List Char} {pieces : List Piece} :
    isQuoted before pieces = true ↔
      before.getLast? = some '"' ∧ ∃ chars rest, pieces = .text ('"' :: chars) :: rest := by
  unfold isQuoted
  split
  · simp
  · next hother =>
    refine ⟨fun h ↦ absurd h (by decide), ?_⟩
    rintro ⟨-, chars, rest, rfl⟩
    exact absurd rfl (hother chars rest)

/-- Whether the holes of a template are the given sockets, in order. -/
def laidOut : List Socket → List Piece → Bool
  | [], [.text _] => true
  | s :: sockets, .text before :: .hole name :: pieces =>
    s.label.toList.isSuffixOf before && s.name == name && (!s.quoted || isQuoted before pieces) &&
      laidOut sockets pieces
  | _, _ => false

/-- The text that a piece has whatever the values are. -/
def Piece.fixed : Piece → List Char
  | text chars => chars
  | hole _ => []

/-! ## Values that serve a slot

A literal has to be written with its escapes and to stand between quotes. The first is a matter of
the value and the second of the template; `Slot.Suits` is about the first alone. -/

/-- Whether a value is written the way a slot asks for. -/
def Slot.Suits (v : Value) : Slot → Prop
  | literal s => v.write = (qmlString s).toList
  | list items => v.write = (Json.array (items.map .string)).compact
  | integer n => v = .integer n
  | flag b => v = .flag b

theorem readable_strings (n : Nat) (items : List String) :
    Json.Readable (n + 1) (.array (items.map .string)) := by
  refine .array fun v hv ↦ ?_
  obtain ⟨s, -, rfl⟩ := List.mem_map.mp hv
  exact .string s

theorem write_integer (n : Nat) : (Value.integer n).write = (toString n).toList := rfl

theorem Slot.holds_of_suits {v : Value} {slot : Slot} (h : slot.Suits v) {before behind : List Char}
    (hquotes : slot.isLiteral = true →
      before.getLast? = some '"' ∧ ∃ rest, behind = '"' :: rest) :
    slot.Holds before v.write behind := by
  cases slot with
  | literal s =>
    obtain ⟨hopen, rest, rfl⟩ := hquotes rfl
    refine .literal hopen ?_
    rw [show v.write = (qmlString s).toList from h]
    exact readLiteral_append s rest
  | list items =>
    refine .list ?_
    rw [show v.write = (Json.array (items.map .string)).compact from h]
    exact Json.parse_compact (readable_strings _ items)
  | integer n =>
    obtain rfl : v = .integer n := h
    exact .integer
  | flag b =>
    obtain rfl : v = .flag b := h
    exact .flag

theorem feed_notMem_quote (s : String) : '\n' ∉ Json.quote s := by
  intro hmem
  rw [Json.quote, List.cons_append, List.mem_cons, List.mem_append, List.mem_singleton] at hmem
  rcases hmem with h | h | h
  · exact absurd h (by decide)
  · exact absurd (Json.toNat_of_mem_spells (Json.spells_escape s.toList) '\n' h) (by decide)
  · exact absurd h (by decide)

theorem feed_notMem_compact (items : List String) :
    '\n' ∉ (Json.array (items.map .string)).compact := by
  have hitems : '\n' ∉ Json.compactItems (items.tail.map .string) := by
    induction items.tail with
    | nil => simp [Json.compactItems]
    | cons s items ih => simp [Json.compactItems, Json.compact, feed_notMem_quote, ih]
  rcases items with _ | ⟨s, items⟩
  · decide
  · rw [List.tail_cons] at hitems
    simp [Json.compact, feed_notMem_quote, hitems]

theorem feed_notMem_of_suits {v : Value} {slot : Slot} (h : slot.Suits v) : '\n' ∉ v.write := by
  cases slot with
  | literal s =>
    rw [show v.write = (qmlString s).toList from h]
    exact notMem_qmlString s (.inl rfl)
  | list items =>
    rw [show v.write = (Json.array (items.map .string)).compact from h]
    exact feed_notMem_compact items
  | integer n =>
    obtain rfl : v = .integer n := h
    intro hmem
    rw [write_integer, Nat.toString_eq_repr, Nat.toList_repr] at hmem
    exact absurd (Json.isDigit_of_mem_toDigits hmem) (by decide)
  | flag b =>
    obtain rfl : v = .flag b := h
    cases b <;> decide

/-! ## Filling -/

theorem fill_text (values : List (String × Value)) (chars : List Char) (pieces : List Piece) :
    fill values (.text chars :: pieces) = (fill values pieces).map (chars ++ ·) := rfl

theorem fill_hole {values : List (String × Value)} {name : String} {v : Value}
    (h : values.lookup name = some v) (pieces : List Piece) :
    fill values (.hole name :: pieces) = (fill values pieces).map (v.write ++ ·) := by
  rw [fill, h]

theorem exists_fill {values : List (String × Value)} {pieces : List Piece}
    (h : ∀ name, .hole name ∈ pieces → (values.lookup name).isSome = true) :
    ∃ text, fill values pieces = .ok text := by
  induction pieces with
  | nil => exact ⟨[], rfl⟩
  | cons p pieces ih =>
    obtain ⟨text, htext⟩ := ih fun name hname ↦ h name (List.mem_cons_of_mem p hname)
    cases p with
    | text chars => exact ⟨chars ++ text, by rw [fill_text, htext]; rfl⟩
    | hole name =>
      obtain ⟨v, hv⟩ := Option.isSome_iff_exists.mp (h name List.mem_cons_self)
      exact ⟨v.write ++ text, by rw [fill_hole hv, htext]; rfl⟩

theorem head?_of_filled {slots : List (String × Slot)} {sockets : List Socket} {c : Char}
    {chars : List Char} {pieces : List Piece} {text : List Char}
    (h : Filled slots sockets (.text (c :: chars) :: pieces) text) : ∃ rest, text = c :: rest := by
  cases h with
  | last _ => exact ⟨chars, rfl⟩
  | hole _ _ _ _ => exact ⟨_, rfl⟩

/-- What serves a socket: a value that suits what is to stand there. -/
structure Serves (values : List (String × Value)) (slots : List (String × Slot)) (s : Socket)
    (slot : Slot) (v : Value) : Prop where
  slot_eq : slots.lookup s.name = some slot
  value_eq : values.lookup s.name = some v
  suits : slot.Suits v
  quoted : slot.isLiteral = true → s.quoted = true

/-- **A template with the right layout is filled rightly**, and its lines end where they ended. The
induction is on the sockets; each takes two pieces. -/
theorem exists_filled {values : List (String × Value)} {slots : List (String × Slot)}
    {sockets : List Socket} {pieces : List Piece} (hlaid : laidOut sockets pieces = true)
    (hserves : ∀ s ∈ sockets, ∃ slot v, Serves values slots s slot v) :
    ∃ text, fill values pieces = .ok text ∧ Filled slots sockets pieces text ∧
      text.count '\n' = (pieces.flatMap Piece.fixed).count '\n' := by
  induction sockets generalizing pieces with
  | nil =>
    -- Behind the last hole stands one text.
    rcases pieces with _ | ⟨_ | _, _ | _⟩
    · exact absurd hlaid (by simp [laidOut])
    · next chars =>
      refine ⟨chars ++ [], rfl, ?_, rfl⟩
      rw [List.append_nil]
      exact .last chars
    all_goals exact absurd hlaid (by simp [laidOut])
  | cons s sockets ih =>
    -- A layout leaves one shape of pieces: a text, the hole of the socket, and the rest.
    rcases pieces with _ | ⟨before | _, _ | ⟨_ | name, pieces⟩⟩
    · exact absurd hlaid (by simp [laidOut])
    · exact absurd hlaid (by simp [laidOut])
    · exact absurd hlaid (by simp [laidOut])
    · rw [laidOut, Bool.and_eq_true, Bool.and_eq_true, Bool.and_eq_true] at hlaid
      obtain ⟨⟨⟨hlabel, hname⟩, hquoted⟩, hlaid⟩ := hlaid
      obtain ⟨text, htext, hfilled, hcount⟩ :=
        ih hlaid fun s' hs' ↦ hserves s' (List.mem_cons_of_mem s hs')
      obtain ⟨slot, v, hs⟩ := hserves s List.mem_cons_self
      obtain rfl : s.name = name := by simpa using hname
      refine ⟨before ++ (v.write ++ text), ?_, ?_, ?_⟩
      · rw [fill_text, fill_hole hs.value_eq, htext]
        rfl
      · refine .hole (List.isSuffixOf_iff_suffix.mp hlabel) hs.slot_eq
          (Slot.holds_of_suits hs.suits ?_) hfilled
        -- The quote behind a literal is the first character of the text that follows the hole.
        intro hliteral
        rw [hs.quoted hliteral] at hquoted
        obtain ⟨hopen, chars, rest, rfl⟩ := isQuoted_iff.mp hquoted
        exact ⟨hopen, head?_of_filled hfilled⟩
      · have hfree : v.write.count '\n' = 0 :=
          List.count_eq_zero.mpr (feed_notMem_of_suits hs.suits)
        rw [List.count_append, List.count_append, hfree, hcount, List.flatMap_cons,
          List.flatMap_cons, List.count_append, List.count_append]
        simp [Piece.fixed]
    all_goals exact absurd hlaid (by simp [laidOut])

/-! ## Templates given by lines

The sources are given as lines of strings, and a check that is evaluated on them would take long. So
the lines are turned into characters first, by unification, and what is evaluated has only
characters in it. -/

/-- The characters of lines, each ended by a line feed. -/
def lineChars (lines : List String) : List Char :=
  lines.flatMap fun line ↦ line.toList ++ ['\n']

theorem lineChars_nil : lineChars [] = [] := rfl

/-- A literal unifies with the text of a list, so this turns given lines into given characters. -/
theorem lineChars_cons {line : String} {lines : List String} {chars rest : List Char}
    (hline : line = String.ofList chars) (hrest : lineChars lines = rest) :
    lineChars (line :: lines) = chars ++ '\n' :: rest := by
  rw [hline, ← hrest, lineChars, List.flatMap_cons, String.toList_ofList, List.append_assoc]
  rfl

/-- What is checked of the characters and pieces of a template holds of the template. -/
theorem exists_parse_ofLines (check : List Char → List Piece → Bool) {lines : List String}
    {chars : List Char} (hlines : lineChars lines = chars)
    (hcheck : (parseFrom (.text []) chars).map (check chars) = some true) :
    ∃ pieces, parse (ofLines lines) = some pieces ∧
      check (ofLines lines).toList pieces = true := by
  have hchars : (ofLines lines).toList = chars := by
    rw [← hlines]
    exact toList_ofLines lines
  obtain ⟨pieces, hpieces, hholds⟩ := Option.map_eq_some_iff.mp hcheck
  refine ⟨pieces, ?_, ?_⟩
  · rw [parse, hchars, hpieces]
  · rw [hchars, hholds]

/-! ## Sets of templates -/

theorem addAll_cons {set : TemplateSet} {name source : String} {pieces : List Piece}
    (h : parse source = some pieces) (rest : List (String × String)) :
    set.addAll ((name, source) :: rest) =
      TemplateSet.addAll ⟨(name, pieces) :: set.templates⟩ rest := by
  rw [TemplateSet.addAll, TemplateSet.add, h]

theorem render_eq {set : TemplateSet} {name : String} {pieces : List Piece}
    {values : List (String × Value)} {text : List Char}
    (hset : set.templates.lookup name = some pieces)
    (hfill : fill (values ++ functions) pieces = .ok text) :
    set.render name values = .ok (String.ofList text) := by
  rw [TemplateSet.render, hset]
  simp only [hfill]

end BarBridge.Template
