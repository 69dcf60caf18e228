import BarBridge.Proofs.Widget.Reading

/-!
# A widget from its object

The object of a widget leaves out what is not set, so its reader has to say what a missing member
means: no command, no interval, no limit, and for a flag that it does not hold. `Widget.decode?` is
that reader. It is strict where the writer leaves no choice, so that nothing is told from the object
but what is written there: a member of the wrong kind is refused, and so are a refresh without a
command and a wheel mode without the wheel.

That an object decodes to the widget it was made from (`decode?_toJson`) rests on the table of a
widget: what the reader finds under a key is the entry of the table, and each entry is read by the
law of its kind.

## What is not written

A flag that does not hold, or a value that is not there, could be written as `false` or `null` and
would be read the same. The objects are free of both at any depth (`filled_toJson`).

## Two places

Each widget is written twice, in the document of all widgets and in a file of its own, and at a
different depth. Since what is read back is the object and not its layout, the two say the same
(`written_widgets_decode`).
-/

namespace BarBridge

/-! ## Values without blanks -/

/-- Whether neither `null` nor `false` occurs in a value, at any depth. -/
inductive Json.Filled : Json → Prop where
  | yes : Filled (.bool true)
  | number (n : Number) : Filled (.number n)
  | string (s : String) : Filled (.string s)
  | array {items : List Json} (hitems : ∀ v ∈ items, Filled v) : Filled (.array items)
  | object {members : List (String × Json)} (hmembers : ∀ m ∈ members, Filled m.2) :
      Filled (.object members)

namespace Widget

theorem filled_present {t : List (String × Option Json)}
    (h : ∀ entry ∈ t, ∀ v ∈ entry.2, Json.Filled v) : Json.Filled (.object (present t)) := by
  refine .object fun m hm ↦ ?_
  obtain ⟨⟨key, v⟩, hentry, hv⟩ := List.mem_filterMap.mp hm
  obtain ⟨v, rfl, rfl⟩ := Option.map_eq_some_iff.mp hv
  exact h _ hentry v rfl

theorem filled_toJson (w : Widget) : w.toJson.Filled := by
  have hholds : ∀ b, ∀ v ∈ ifHolds b, Json.Filled v := by
    intro b v hv
    cases b with
    | false => exact absurd hv (Option.not_mem_none v)
    | true =>
      obtain rfl := Option.some.inj hv
      exact .yes
  have hmap : ∀ {α : Type} {f : α → Json} {a : Option α}, (∀ x, (f x).Filled) →
      ∀ v ∈ a.map f, Json.Filled v := by
    intro α f a hf v hv
    obtain ⟨x, -, rfl⟩ := Option.map_eq_some_iff.mp hv
    exact hf x
  have hcommand : ∀ a, ∀ v ∈ commandOf a, Json.Filled v := fun a ↦ hmap fun a ↦ .string a.exec
  have hlimit : ∀ l, (ofLimit l).Filled := by
    intro l
    refine .object ?_
    simp only [List.forall_mem_cons]
    exact ⟨.number _, .number _, List.forall_mem_nil _⟩
  have hstring : ∀ s : String, ∀ v ∈ some (Json.string s), v.Filled := by
    intro s v hv
    obtain rfl := Option.some.inj hv
    exact .string s
  rw [toJson_eq]
  refine filled_present ?_
  simp only [table, List.forall_mem_cons]
  refine ⟨hstring _, hstring _, hholds _, hmap fun n ↦ .number _, hholds _, hcommand _, hholds _,
    hcommand _, hholds _, hcommand _, hholds _, hcommand _, hcommand _, ?_, hholds _, hholds _,
    hmap hlimit, List.forall_mem_nil _⟩
  split
  · exact hstring _
  · exact fun v hv ↦ absurd hv (Option.not_mem_none v)

/-! ## The reader -/

/-- A member that has to be there. -/
def requiredAt? {α : Type} (read : Json → Option α) (members : List (String × Json))
    (key : String) : Option α :=
  (members.lookup key).bind read

/-- A member that may be left out; one that `read` does not know is refused. -/
def optionalAt? {α : Type} (read : Json → Option α) (members : List (String × Json))
    (key : String) : Option (Option α) :=
  match members.lookup key with
  | none => some none
  | some v => (read v).map some

/-- A member that holds or does not; left out, it does not. -/
def flagAt? (members : List (String × Json)) (key : String) : Option Bool :=
  (optionalAt? Json.bool? members key).map (·.getD false)

/-- A command and whether the text is refreshed behind it. There is no refresh alone. -/
def actionAt? (members : List (String × Json)) (execKey updateKey : String) :
    Option (Option Action) := do
  let exec ← optionalAt? Json.string? members execKey
  let updateText ← flagAt? members updateKey
  if exec.isNone && updateText then none
  else some (exec.map (⟨·, updateText⟩))

/-- An integer of 64 bits without a sign. -/
def unsigned? (v : Json) : Option Nat :=
  v.number?.bind Number.toUnsigned?

def uint64? (v : Json) : Option UInt64 :=
  (unsigned? v).map UInt64.ofNat

def uint32? (v : Json) : Option UInt32 :=
  (unsigned? v).bind fun n ↦ if n < UInt32.size then some (UInt32.ofNat n) else none

/-- The limits of the text. Neither of them is left out. -/
def limit? (v : Json) : Option TextLimit := do
  let members ← v.object?
  let horizontal ← requiredAt? uint32? members "horizontal"
  let vertical ← requiredAt? uint32? members "vertical"
  return ⟨horizontal, vertical⟩

/-- The wheel mode that goes with the commands for the wheel. -/
def wheelMode (up down : Option Action) : Option String :=
  if up.isSome || down.isSome then some "separate" else none

/-- The widget that an object stands for. -/
def decode? (v : Json) : Option Widget := do
  let members ← v.object?
  let type ← requiredAt? Json.string? members "type"
  guard (type = "CustomButton")
  let textCommand ← requiredAt? Json.string? members "textCommand"
  let textStream ← flagAt? members "textStream"
  let textIntervalMs ← optionalAt? uint64? members "textIntervalMs"
  let parseJson ← flagAt? members "parseJson"
  let leftClick ← actionAt? members "leftClickExec" "leftClickUpdateText"
  let rightClick ← actionAt? members "rightClickExec" "rightClickUpdateText"
  let middleClick ← actionAt? members "middleClickExec" "middleClickUpdateText"
  let wheelUp ← actionAt? members "wheelUpExec" "wheelUpUpdateText"
  let wheelDown ← actionAt? members "wheelDownExec" "wheelDownUpdateText"
  let mode ← optionalAt? Json.string? members "wheelMode"
  guard (mode = wheelMode wheelUp wheelDown)
  let maxText ← optionalAt? limit? members "maxTextLength"
  return ⟨textCommand, textStream, textIntervalMs, parseJson, leftClick, rightClick, middleClick,
    wheelUp, wheelDown, maxText⟩

/-! ## The laws of the reader

An entry of the table is written by a function that can be undone, or is left out. There is a law
for each kind of entry, under whatever key it stands. -/

section

variable {members : List (String × Json)} {key execKey updateKey : String}

theorem requiredAt?_eq {α : Type} {read : Json → Option α} {write : α → Json} {a : α}
    (hread : ∀ x, read (write x) = some x) (h : members.lookup key = some (write a)) :
    requiredAt? read members key = some a := by
  rw [requiredAt?, h, Option.bind_some, hread]

theorem optionalAt?_eq {α : Type} {read : Json → Option α} {write : α → Json} {a : Option α}
    (hread : ∀ x, read (write x) = some x) (h : members.lookup key = a.map write) :
    optionalAt? read members key = some a := by
  rw [optionalAt?, h]
  cases a with
  | none => rfl
  | some x => exact congrArg (Option.map some) (hread x)

theorem flagAt?_eq {b : Bool} (h : members.lookup key = ifHolds b) :
    flagAt? members key = some b := by
  rw [flagAt?, optionalAt?, h]
  cases b <;> rfl

theorem actionAt?_eq {a : Option Action} (hexec : members.lookup execKey = commandOf a)
    (hupdate : members.lookup updateKey = ifHolds (updates a)) :
    actionAt? members execKey updateKey = some a := by
  have hcommand : members.lookup execKey = (a.map (·.exec)).map .string := by
    rw [hexec, commandOf, Option.map_map]
    rfl
  have hread : optionalAt? Json.string? members execKey = some (a.map (·.exec)) :=
    optionalAt?_eq (fun _ ↦ rfl) hcommand
  rw [actionAt?, hread, flagAt?_eq hupdate]
  cases a <;> rfl

theorem unsigned?_natCast {n : Nat} (h : n < UInt64.size) :
    unsigned? (.number (.int n)) = some n := by
  rw [unsigned?, Json.number?, Option.bind_some, Number.toUnsigned?,
    if_pos ⟨Int.natCast_nonneg n, by exact_mod_cast h⟩, Int.toNat_natCast]

theorem uint64?_ofUInt64 (n : UInt64) : uint64? (ofUInt64 n) = some n := by
  rw [uint64?, ofUInt64, unsigned?_natCast n.toNat_lt, Option.map_some, UInt64.ofNat_toNat]

theorem uint32?_ofUInt32 (n : UInt32) : uint32? (ofUInt32 n) = some n := by
  have hlt : n.toNat < UInt32.size := n.toNat_lt
  rw [uint32?, ofUInt32, unsigned?_natCast (Nat.lt_trans hlt (by decide)), Option.bind_some,
    if_pos hlt, UInt32.ofNat_toNat]

theorem limit?_ofLimit (l : TextLimit) : limit? (ofLimit l) = some l := by
  have hhorizontal : requiredAt? uint32? [("horizontal", ofUInt32 l.horizontal),
      ("vertical", ofUInt32 l.vertical)] "horizontal" = some l.horizontal :=
    requiredAt?_eq uint32?_ofUInt32 rfl
  have hvertical : requiredAt? uint32? [("horizontal", ofUInt32 l.horizontal),
      ("vertical", ofUInt32 l.vertical)] "vertical" = some l.vertical :=
    requiredAt?_eq uint32?_ofUInt32 rfl
  rw [limit?, ofLimit, Json.object?, Option.bind_eq_bind, Option.bind_some, hhorizontal, hvertical]
  rfl

end

/-- **A widget is decoded from its object.** -/
theorem decode?_toJson (w : Widget) : decode? w.toJson = some w := by
  have hlookup : ∀ key, (present w.table).lookup key = (w.table.lookup key).join :=
    lookup_present (nodup_keys_table w)
  have hstring : ∀ s, Json.string? (.string s) = some s := fun _ ↦ rfl
  have hmode : (present w.table).lookup "wheelMode" =
      (wheelMode w.wheelUp w.wheelDown).map .string := by
    refine (hlookup _).trans ?_
    rw [wheelMode, apply_ite (Option.map Json.string)]
    rfl
  rw [toJson_eq, decode?, Json.object?, Option.bind_eq_bind, Option.bind_some,
    requiredAt?_eq (a := "CustomButton") hstring (hlookup "type"),
    requiredAt?_eq (a := w.textCommand) hstring (hlookup "textCommand"),
    flagAt?_eq (b := w.textStream) (hlookup "textStream"),
    optionalAt?_eq uint64?_ofUInt64 (hlookup "textIntervalMs"),
    flagAt?_eq (hlookup "parseJson"),
    actionAt?_eq (hlookup "leftClickExec") (hlookup "leftClickUpdateText"),
    actionAt?_eq (hlookup "rightClickExec") (hlookup "rightClickUpdateText"),
    actionAt?_eq (hlookup "middleClickExec") (hlookup "middleClickUpdateText"),
    actionAt?_eq (hlookup "wheelUpExec") (hlookup "wheelUpUpdateText"),
    actionAt?_eq (hlookup "wheelDownExec") (hlookup "wheelDownUpdateText"),
    optionalAt?_eq hstring hmode,
    optionalAt?_eq limit?_ofLimit (hlookup "maxTextLength")]
  simp only [Option.bind_eq_bind, Option.bind_some, guard, if_true]
  rfl

end Widget

/-! ## The files of all widgets -/

namespace ConvertedWidget

theorem readable_document (n : Nat) (ws : List ConvertedWidget) :
    Json.Readable (n + 4) (document ws) := by
  have hinstructions : Json.Readable (n + 3) (.array [
      .string "Copy the widgets array entries to your settings.json",
      .string "Add them to bar.widgets.left, bar.widgets.center, or bar.widgets.right"]) := by
    refine .array ?_
    simp only [List.forall_mem_cons]
    exact ⟨.string _, .string _, List.forall_mem_nil _⟩
  have hwidgets : Json.Readable (n + 3) (.array (ws.map fun w ↦ w.widget.toJson)) := by
    refine .array fun v hv ↦ ?_
    obtain ⟨w, -, rfl⟩ := List.mem_map.mp hv
    exact Widget.readable_toJson n w.widget
  refine .object (by simp) ?_
  simp only [List.forall_mem_cons]
  exact ⟨.string _, hinstructions, hwidgets, List.forall_mem_nil _⟩

/-- The document of widgets is read back as the objects of the widgets. -/
theorem member?_document (ws : List ConvertedWidget) :
    Widget.member? (Artifact.document (document ws)) "widgets" =
      some (.array (ws.map fun w ↦ w.widget.toJson)) := by
  rw [Widget.member?, Json.parse_document (readable_document _ ws)]
  rfl

theorem parse_file (w : ConvertedWidget) :
    Json.parse w.file.contents.toList = .ok w.widget.toJson :=
  Json.parse_document (Widget.readable_toJson _ w.widget)

theorem take_tail_files (ws : List ConvertedWidget) :
    (files ws).tail.take ws.length = ws.map file := by
  rw [files, List.cons_append, List.tail_cons]
  exact List.take_left' (List.length_map _)

end ConvertedWidget

/-- **The written widgets lose nothing.** The entries of the document of widgets decode to the
widgets of the modules, in order. Behind the document stand the files of the single widgets, each
with the entry of its module. -/
theorem written_widgets_decode (options : Options) (modules : List CustomModule) :
    let files := ConvertedWidget.files (convertWidgets options modules)
    let own := files.tail.take modules.length
    ∃ text entries, files.head? = some ⟨"custom_widgets.json", text⟩ ∧
      Widget.member? text "widgets" = some (.array entries) ∧
      entries.map Widget.decode? =
        modules.map (fun m ↦ some (Widget.ofModule m (Command.ofModule m))) ∧
      own.map (·.path) = modules.map (fun m ↦ "widgets/" ++ fileStem m.name ++ ".json") ∧
      own.map (fun a ↦ Json.parse a.contents.toList) = entries.map .ok ∧
      ∀ entry ∈ entries, entry.Filled := by
  intro files own
  have hown : own = (convertWidgets options modules).map ConvertedWidget.file := by
    have hlength : modules.length = (convertWidgets options modules).length :=
      (List.length_map _).symm
    rw [← ConvertedWidget.take_tail_files (convertWidgets options modules), ← hlength]
  refine ⟨_, _, rfl, ConvertedWidget.member?_document _, ?_, ?_, ?_, ?_⟩
  · rw [convertWidgets, List.map_map, List.map_map]
    refine List.map_congr_left fun m _ ↦ ?_
    exact Widget.decode?_toJson (Widget.ofModule m (Command.ofModule m))
  · rw [hown, convertWidgets, List.map_map, List.map_map]
    rfl
  · rw [hown, List.map_map, List.map_map]
    refine List.map_congr_left fun w _ ↦ ?_
    rw [Function.comp_apply, w.parse_file, Function.comp_apply]
  · intro entry hentry
    obtain ⟨w, -, rfl⟩ := List.mem_map.mp hentry
    exact Widget.filled_toJson w.widget

end BarBridge
