import Mathlib.Data.List.Basic
import BarBridge.Proofs.Plugin.Views

/-!
# What the views fall back on

Each default of a plugin is written three times: as a member of the manifest, and behind the
properties of two views, for the case that the manifest is missing. The manifest is JSON and the
views are QML, so the three agree if the literals of the views denote the values of the manifest.

## How a default is found

A view declares each of these properties on a line of its own. Such a line begins with the property
and the two places that are asked first, and what is left of it, up to two closing parentheses, is
the fallback. It is looked for in the finished view, and read as a literal there: nothing is assumed
of how it was written.

## What is found

Four of the five defaults agree, whatever the command is and however long the intervals are. The
flag does not: templates write truth values with a capital, and `True` is no literal
(`agrees_iff_of_ofModule`).
-/

namespace BarBridge.Plugin

open Template Text

/-! ## Reading a default in a view -/

/-- A property of a view, up to its name, and the setting whose value it takes. -/
structure Property where
  declaration : String
  setting : String
  deriving DecidableEq, Repr

/-- The line of a property up to what it falls back on. -/
def Property.opening (p : Property) : List Char :=
  p.declaration.toList ++ (": settingOr(pluginApi?.pluginSettings?.".toList ++ (p.setting.toList ++
    (", settingOr(defaultSettings.".toList ++ (p.setting.toList ++ [',', ' ']))))

/-- The rest of such a line behind what it falls back on. -/
def closing : List Char := [')', ')']

/-- What a line falls back on if it declares the property. -/
def Property.fallbackOn? (p : Property) (line : List Char) : Option (List Char) :=
  (line.dropPrefix? p.opening).bind (·.dropSuffix? closing)

/-- What a view falls back on for a property, as it is written. -/
def fallback? (view : String) (p : Property) : Option (List Char) :=
  (view.toList.splitOn '\n').findSome? p.fallbackOn?

/-- What a literal denotes: a text between quotes, a number, or one of the words `true` and
`false`. -/
def literalValue? : List Char → Option Json
  | '"' :: cs =>
    match readLiteral cs with
    | some (text, []) => some (.string (String.ofList text))
    | _ => none
  | cs =>
    match Json.parse cs with
    | .ok (.number n) => some (.number n)
    | .ok (.bool b) => some (.bool b)
    | _ => none

/-- The default of a setting in the text of a manifest. -/
def manifestDefault? (manifest setting : String) : Option Json := do
  let document ← (Json.parse manifest.toList).toOption
  let metadata ← (← document.object?).lookup "metadata"
  let settings ← (← metadata.object?).lookup "defaultSettings"
  (← settings.object?).lookup setting

/-- Whether what a view falls back on denotes the default of the manifest. -/
def Agrees (manifest view : String) (p : Property) : Prop :=
  ∃ v, manifestDefault? manifest p.setting = some v ∧
    (fallback? view p).bind literalValue? = some v

/-- The properties of the main view that have a default. -/
def mainProperties : List Property := [
  ⟨"  readonly property string textCommand", "textCommand"⟩,
  ⟨"  readonly property int intervalSeconds", "interval"⟩,
  ⟨"  readonly property string intervalMode", "intervalMode"⟩,
  ⟨"  readonly property int restartIntervalMs", "restartIntervalMs"⟩,
  ⟨"  readonly property bool parseJson", "parseJson"⟩]

/-- The properties of the settings view that have a default. -/
def settingsProperties : List Property := [
  ⟨"  property string valueTextCommand", "textCommand"⟩,
  ⟨"  property int valueInterval", "interval"⟩,
  ⟨"  property string valueIntervalMode", "intervalMode"⟩,
  ⟨"  property int valueRestartMs", "restartIntervalMs"⟩,
  ⟨"  property bool valueParseJson", "parseJson"⟩]

/-! ## Lines

The line of one property does not begin like that of another, and the lines in front begin like
none. So a property is found on its own line, whatever the lines fall back on, as long as no line
feed is put into them. -/

/-- Lines with the line feeds that end them. -/
def unlines (ls : List (List Char)) : List Char :=
  ls.flatMap (· ++ ['\n'])

theorem splitOn_unlines_append {ls : List (List Char)} (h : ∀ l ∈ ls, '\n' ∉ l) (cs : List Char) :
    (unlines ls ++ cs).splitOn '\n' = ls ++ cs.splitOn '\n' := by
  induction ls with
  | nil => rfl
  | cons l ls ih =>
    rw [List.forall_mem_cons] at h
    rw [unlines, List.flatMap_cons, List.append_assoc, List.append_assoc, List.singleton_append,
      List.splitOn_append_cons_self_of_not_mem h.1]
    exact congrArg (l :: ·) (ih h.2)

/-- The line of a property that falls back on the given text. -/
def Property.line (p : Property) (written : List Char) : List Char :=
  p.opening ++ (written ++ closing)

theorem Property.fallbackOn?_line (p : Property) (written : List Char) :
    p.fallbackOn? (p.line written) = some written := by
  have hopening : (p.line written).dropPrefix? p.opening = some (written ++ closing) :=
    List.dropPrefix?_append_of_beq _ (beq_self_eq_true _)
  have hclosing : (written ++ closing).dropSuffix? closing = some written :=
    List.dropSuffix?_eq_some_iff.mpr ⟨closing, rfl, beq_self_eq_true _⟩
  rw [fallbackOn?, hopening]
  exact hclosing

theorem Property.fallbackOn?_eq_none {p : Property} {line : List Char} (h : ¬p.opening <+: line) :
    p.fallbackOn? line = none := by
  rw [fallbackOn?, Option.bind_eq_none_iff]
  intro rest hrest
  obtain ⟨opening, rfl, hopening⟩ := List.dropPrefix?_eq_some_iff.mp hrest
  rw [beq_iff_eq] at hopening
  subst hopening
  exact absurd (List.prefix_append _ rest) h

/-- Whether neither of two texts begins the other. -/
def Apart (o o' : List Char) : Prop :=
  ¬o <+: o' ∧ ¬o' <+: o

instance (o o' : List Char) : Decidable (Apart o o') :=
  inferInstanceAs (Decidable (_ ∧ _))

theorem Property.fallbackOn?_line_eq_none {p q : Property} (h : Apart p.opening q.opening)
    (written : List Char) : p.fallbackOn? (q.line written) = none := by
  refine fallbackOn?_eq_none fun hprefix ↦ ?_
  rcases List.prefix_or_prefix_of_prefix hprefix (List.prefix_append q.opening _) with hpq | hqp
  · exact h.1 hpq
  · exact h.2 hqp

/-- A property is found among the lines of others, in a view that has further lines before them. -/
theorem fallback?_eq {before : List (List Char)} {places : List (Property × Socket)}
    (written : Socket → List Char) {behind : List Char} {p : Property} {s : Socket}
    (hbefore : ∀ l ∈ before, '\n' ∉ l ∧ ¬p.opening <+: l)
    (hfeed : ∀ q ∈ places, '\n' ∉ q.1.line (written q.2))
    (hapart : places.Pairwise fun q r ↦ Apart r.1.opening q.1.opening) (hp : (p, s) ∈ places) :
    fallback? (String.ofList (unlines before ++
      (unlines (places.map fun q ↦ q.1.line (written q.2)) ++ behind))) p =
      some (written s) := by
  obtain ⟨earlier, later, rfl⟩ := List.append_of_mem hp
  have hlines : ∀ l ∈ (earlier ++ (p, s) :: later).map fun q ↦ q.1.line (written q.2),
      '\n' ∉ l := by
    intro l hl
    obtain ⟨q, hq, rfl⟩ := List.mem_map.mp hl
    exact hfeed q hq
  rw [fallback?, String.toList_ofList, splitOn_unlines_append fun l hl ↦ (hbefore l hl).1,
    splitOn_unlines_append hlines, List.map_append, List.map_cons, List.append_assoc,
    List.cons_append, ← List.append_assoc, List.findSome?_eq_some_iff]
  refine ⟨_, _, _, rfl, p.fallbackOn?_line _, fun l hl ↦ ?_⟩
  rcases List.mem_append.mp hl with hl | hl
  · exact Property.fallbackOn?_eq_none (hbefore l hl).2
  · obtain ⟨q, hq, rfl⟩ := List.mem_map.mp hl
    have hpq : Apart p.opening q.1.opening :=
      (List.pairwise_append.mp hapart).2.2 q hq (p, s) List.mem_cons_self
    exact Property.fallbackOn?_line_eq_none hpq _

/-! ## The lines of a template

That a template has the lines that are wanted is found by evaluation, since the template is fixed.
What is evaluated is about characters; it is turned into a statement about properties once
(`exists_declaresAt`). -/

/-- The quote on either side of a place for a literal. -/
def quoteMark (s : Socket) : List Char :=
  if s.quoted then ['"'] else []

/-- What a view falls back on where a socket is served. -/
def served (values : List (String × Value)) (s : Socket) : List Char :=
  quoteMark s ++ (((values.lookup s.name).map Value.write).getD [] ++ quoteMark s)

/-- The beginnings of the lines of properties, with their sockets. -/
def openings (places : List (Property × Socket)) : List (List Char × Socket) :=
  places.map fun q ↦ (q.1.opening, q.2)

/-- Whether pieces spell `before` and then lines that begin as given, each with the hole of its
socket as its fallback. -/
def spells : List (List Char × Socket) → List Char → List Piece → Bool
  | [], before, .text cs :: _ => before.isPrefixOf cs
  | (opening, s) :: openings, before, .text cs :: .hole name :: pieces =>
    cs == before ++ (opening ++ quoteMark s) && name == s.name &&
      spells openings (quoteMark s ++ (closing ++ ['\n'])) pieces
  | _, _, _ => false

theorem fill_eq_ok_of_text {values : List (String × Value)} {pieces : List Piece}
    (cs : List Char) {text : List Char} (h : fill values (.text cs :: pieces) = .ok text) :
    ∃ rest, fill values pieces = .ok rest ∧ text = cs ++ rest := by
  rw [fill_text] at h
  cases hrest : fill values pieces with
  | error name =>
    rw [hrest] at h
    exact nomatch h
  | ok rest =>
    rw [hrest] at h
    exact ⟨rest, rfl, (Except.ok.inj h).symm⟩

theorem fill_eq_ok_of_hole {values : List (String × Value)} {name : String} {text : List Char}
    {pieces : List Piece} (h : fill values (.hole name :: pieces) = .ok text) :
    ∃ v rest, values.lookup name = some v ∧ fill values pieces = .ok rest ∧
      text = v.write ++ rest := by
  cases hv : values.lookup name with
  | none => exact nomatch (show Except.error name = .ok text from by rwa [fill, hv] at h)
  | some v =>
    rw [fill_hole hv] at h
    obtain ⟨rest, hrest, htext⟩ := fill_eq_ok_of_text v.write h
    exact ⟨v, rest, rfl, hrest, htext⟩

/-- The lines of a filled template. The induction is on the properties; the text in front of the
next hole begins with the end of the line before. -/
theorem exists_eq_unlines_of_fill {values : List (String × Value)}
    {places : List (Property × Socket)} {before text : List Char} {pieces : List Piece}
    (hspells : spells (openings places) before pieces = true)
    (hfill : fill values pieces = .ok text) :
    ∃ behind, text = before ++
      (unlines (places.map fun q ↦ q.1.line (served values q.2)) ++ behind) := by
  induction places generalizing before text pieces with
  | nil =>
    rcases pieces with _ | ⟨cs | _, pieces⟩
    · exact nomatch hspells
    · obtain ⟨rest, -, rfl⟩ := fill_eq_ok_of_text _ hfill
      obtain ⟨behind, rfl⟩ := List.isPrefixOf_iff_prefix.mp hspells
      exact ⟨behind ++ rest, List.append_assoc before behind rest⟩
    · exact nomatch hspells
  | cons place places ih =>
    obtain ⟨p, s⟩ := place
    rcases pieces with _ | ⟨cs | _, _ | ⟨_ | name, pieces⟩⟩
    · exact nomatch hspells
    · exact nomatch hspells
    · exact nomatch hspells
    · rw [openings, List.map_cons, spells, Bool.and_eq_true, Bool.and_eq_true, beq_iff_eq,
        beq_iff_eq] at hspells
      obtain ⟨⟨rfl, rfl⟩, hspells⟩ := hspells
      obtain ⟨_, hhole, rfl⟩ := fill_eq_ok_of_text _ hfill
      obtain ⟨v, rest, hv, hrest, rfl⟩ := fill_eq_ok_of_hole hhole
      obtain ⟨behind, rfl⟩ := ih hspells hrest
      refine ⟨behind, ?_⟩
      rw [List.map_cons, unlines, unlines, List.flatMap_cons, Property.line, served, hv]
      simp only [List.append_assoc, Option.map_some, Option.getD_some]
    all_goals exact nomatch hspells

/-- Whether a template has, from a line on, lines that begin as given, and can be searched for
them. -/
def declaresAt (n : Nat) (openings : List (List Char × Socket)) (source : List Char)
    (pieces : List Piece) : Bool :=
  let before := (source.splitOn '\n').take n
  decide (∀ o ∈ openings, '\n' ∉ o.1 ∧ ∀ l ∈ before, '\n' ∉ l ∧ ¬o.1 <+: l) &&
    decide (openings.Pairwise fun o o' ↦ Apart o'.1 o.1) && spells openings (unlines before) pieces

def mainPlaces : List (Property × Socket) := mainProperties.zip fallbackSockets

def settingsPlaces : List (Property × Socket) := settingsProperties.zip fallbackSockets

theorem openings_cons {declaration setting : String} {d a s b : List Char} {socket : Socket}
    {places : List (Property × Socket)} {rest : List (List Char × Socket)}
    (hd : declaration = String.ofList d)
    (ha : ": settingOr(pluginApi?.pluginSettings?." = String.ofList a)
    (hs : setting = String.ofList s) (hb : ", settingOr(defaultSettings." = String.ofList b)
    (hrest : openings places = rest) :
    openings ((⟨declaration, setting⟩, socket) :: places) =
      (d ++ (a ++ (s ++ (b ++ (s ++ [',', ' '])))), socket) :: rest := by
  rw [openings, List.map_cons, Property.opening, hd, ha, hs, hb, ← hrest]
  simp only [String.toList_ofList]
  rfl

theorem openings_nil : openings [] = [] := rfl

theorem exists_declaresAt {n : Nat} {places : List (Property × Socket)}
    {os : List (List Char × Socket)} {lines : List String} {chars : List Char}
    (hopenings : openings places = os) (hlines : lineChars lines = chars)
    (hcheck : (parseFrom (.text []) chars).map (declaresAt n os chars) = some true) :
    ∃ pieces, parse (ofLines lines) = some pieces ∧
      declaresAt n (openings places) (ofLines lines).toList pieces = true := by
  rw [hopenings]
  exact exists_parse_ofLines (declaresAt n os) hlines hcheck

set_option maxRecDepth 100000 in
theorem exists_declaresAt_mainView :
    ∃ pieces, parse mainView = some pieces ∧
      declaresAt 16 (openings mainPlaces) mainView.toList pieces = true := by
  simp only [mainView, mainPlaces, mainProperties, fallbackSockets, List.zip_cons_cons,
    List.zip_nil_left]
  apply exists_declaresAt
  · repeat (apply openings_cons; iterate 4 exact rfl)
    exact openings_nil
  · repeat (apply lineChars_cons; exact rfl)
    exact lineChars_nil
  · decide +kernel

set_option maxRecDepth 100000 in
theorem exists_declaresAt_settingsView :
    ∃ pieces, parse settingsView = some pieces ∧
      declaresAt 17 (openings settingsPlaces) settingsView.toList pieces = true := by
  simp only [settingsView, settingsPlaces, settingsProperties, fallbackSockets, List.zip_cons_cons,
    List.zip_nil_left]
  apply exists_declaresAt
  · repeat (apply openings_cons; iterate 4 exact rfl)
    exact openings_nil
  · repeat (apply lineChars_cons; exact rfl)
    exact lineChars_nil
  · decide +kernel

/-! ## A rendered view -/

theorem feed_notMem_served (m : CustomModule) (interval : UInt64) {s : Socket}
    (hs : s ∈ mainSockets ++ barSockets) :
    '\n' ∉ served (values m (defaults m interval) ++ functions) s := by
  obtain ⟨slot, v, hserves⟩ := exists_serves m interval s hs
  have hmark : '\n' ∉ quoteMark s := by
    unfold quoteMark
    split <;> decide
  have hv : '\n' ∉ v.write := feed_notMem_of_suits hserves.suits
  rw [served, hserves.value_eq]
  simp [hmark, hv]

theorem fallback?_of_renders {n : Nat} {places : List (Property × Socket)} {view : String}
    (hview : ∃ pieces, parse view = some pieces ∧
      declaresAt n (openings places) view.toList pieces = true)
    (hsockets : ∀ q ∈ places, q.2 ∈ mainSockets ++ barSockets) {m : CustomModule}
    {interval : UInt64} {text : List Char} (hrenders : Renders m interval view text)
    {p : Property} {s : Socket} (hp : (p, s) ∈ places) :
    fallback? (String.ofList text) p =
      some (served (values m (defaults m interval) ++ functions) s) := by
  obtain ⟨pieces, hpieces, hdeclares⟩ := hview
  obtain ⟨_, hpieces', hfill⟩ := hrenders
  obtain rfl := Option.some.inj (hpieces.symm.trans hpieces')
  rw [declaresAt, Bool.and_eq_true, Bool.and_eq_true, decide_eq_true_iff,
    decide_eq_true_iff] at hdeclares
  obtain ⟨⟨hlines, hapart⟩, hspells⟩ := hdeclares
  obtain ⟨behind, rfl⟩ := exists_eq_unlines_of_fill hspells hfill
  refine fallback?_eq (served _) (hlines _ (List.mem_map_of_mem hp)).2 (fun q hq ↦ ?_)
    (List.pairwise_map.mp hapart) hp
  have hopening := (hlines _ (List.mem_map_of_mem hq)).1
  have hserved := feed_notMem_served m interval (hsockets q hq)
  simp [Property.line, closing, hopening, hserved]

/-! ## The manifest -/

theorem readable_manifest (n : Nat) (name : String) (d : PluginDefaults) :
    Json.Readable (n + 3) (manifest name d) := by
  have hbound : ∀ w : UInt64, Json.Readable n (.number (.int w.toNat)) := fun w ↦
    .int (by omega) (by exact_mod_cast w.toNat_lt)
  have hdefaults : Json.Readable (n + 1) (PluginDefaults.toJson d) := by
    refine .object (by simp) ?_
    simp only [List.forall_mem_cons]
    exact ⟨.string _, hbound _, .string _, hbound _, .bool _, List.forall_mem_nil _⟩
  have hentries : Json.Readable (n + 2) (.object [
      ("main", .string "Main.qml"), ("barWidget", .string "BarWidget.qml"),
      ("settings", .string "Settings.qml")]) := by
    refine .object (by decide) ?_
    simp only [List.forall_mem_cons]
    exact ⟨.string _, .string _, .string _, List.forall_mem_nil _⟩
  have hmetadata : Json.Readable (n + 2) (.object [("defaultSettings", PluginDefaults.toJson d)]) :=
    .object (by simp) (by simpa using hdefaults)
  refine .object (by simp) ?_
  simp only [List.forall_mem_cons]
  exact ⟨.string _, .string _, .string _, .string _, .string _, hentries, hmetadata,
    List.forall_mem_nil _⟩

theorem manifestDefault?_manifest (name : String) (d : PluginDefaults) (setting : String) :
    manifestDefault? (Artifact.document (manifest name d)) setting =
      (PluginDefaults.toJson d).object? >>= (·.lookup setting) := by
  rw [manifestDefault?, Json.parse_document (readable_manifest _ name d)]
  rfl

/-! ## Literals

A text comes back from its literal, and so does a number. A truth value is written with a capital,
which is the literal of nothing. -/

theorem served_plain {values : List (String × Value)} {s : Socket} {v : Value}
    (hs : s.quoted = false) (hv : values.lookup s.name = some v) : served values s = v.write := by
  rw [served, quoteMark, hs, hv]
  exact List.append_nil v.write

theorem literalValue?_quoted (s : String) :
    literalValue? ('"' :: ((qmlString s).toList ++ ['"'])) = some (.string s) := by
  rw [literalValue?, readLiteral_append]
  simp only [String.ofList_toList]

theorem literalValue?_integer (w : UInt64) :
    literalValue? (Value.integer w.toNat).write = some (.number (.int w.toNat)) := by
  have hdigits : (Value.integer w.toNat).write = Nat.toDigits 10 w.toNat := by
    rw [write_integer, Nat.toString_eq_repr, Nat.toList_repr]
  have hcompact : (Json.number (.int w.toNat)).compact = (Value.integer w.toNat).write := by
    rw [Json.compact, Number.write, if_neg (by omega), Int.natAbs_natCast, write_integer]
    rfl
  have hparse : Json.parse (Value.integer w.toNat).write = .ok (.number (.int w.toNat)) := by
    rw [← hcompact]
    exact Json.parse_compact (.int (by omega) (by exact_mod_cast w.toNat_lt))
  unfold literalValue?
  split
  · next hquote =>
    have hmem : '"' ∈ Nat.toDigits 10 w.toNat := by
      rw [← hdigits, hquote]
      exact List.mem_cons_self
    exact absurd (Json.isDigit_of_mem_toDigits hmem) (by decide)
  · rw [hparse]

theorem literalValue?_modeName (i : Interval) :
    literalValue? ('"' :: (i.modeName.toList ++ ['"'])) = some (.string i.modeName) := by
  have hplain : i.modeName.toList = (qmlString i.modeName).toList := suits_modeName i
  rw [hplain]
  exact literalValue?_quoted i.modeName

theorem literalValue?_flag (b : Bool) : literalValue? (Value.flag b).write = none := by
  cases b <;> rfl

/-! ## Views and manifest

A view falls back on the written form of a value that the manifest holds as it is. So each of the
five comparisons is between a value and the literal that it has been written as. -/

theorem agrees_iff {m : CustomModule} {interval : UInt64} {view manifest : String}
    {a b c d e : String}
    (hmanifest : ∀ setting, manifestDefault? manifest setting =
      (PluginDefaults.toJson (defaults m interval)).object? >>= (·.lookup setting))
    (hview : ∀ q ∈ List.zip [⟨a, "textCommand"⟩, ⟨b, "interval"⟩, ⟨c, "intervalMode"⟩,
        ⟨d, "restartIntervalMs"⟩, ⟨e, "parseJson"⟩] fallbackSockets,
      fallback? view q.1 = some (served (values m (defaults m interval) ++ functions) q.2)) :
    ∀ p ∈ [⟨a, "textCommand"⟩, ⟨b, "interval"⟩, ⟨c, "intervalMode"⟩, ⟨d, "restartIntervalMs"⟩,
        ⟨e, "parseJson"⟩],
      (Agrees manifest view p ↔ p.setting ≠ "parseJson") ∧
        (p.setting = "parseJson" → fallback? view p = some (Value.flag m.isJson).write) := by
  -- A literal for the default of a setting agrees.
  have hagrees : ∀ {p : Property} {w : List Char} {v : Json}, p.setting ≠ "parseJson" →
      fallback? view p = some w → literalValue? w = some v →
      (PluginDefaults.toJson (defaults m interval)).object? >>= (·.lookup p.setting) = some v →
      (Agrees manifest view p ↔ p.setting ≠ "parseJson") ∧
        (p.setting = "parseJson" → fallback? view p = some (Value.flag m.isJson).write) := by
    intro p w v hp hw hliteral hdefault
    refine ⟨iff_of_true ⟨v, (hmanifest _).trans hdefault, ?_⟩ hp, fun h ↦ absurd h hp⟩
    rw [hw]
    exact hliteral
  simp only [fallbackSockets, List.zip_cons_cons, List.zip_nil_left, List.forall_mem_cons] at hview
  obtain ⟨htext, hinterval, hmode, hrestart, hflag, -⟩ := hview
  rw [served_plain rfl rfl] at hinterval hrestart hflag
  simp only [List.forall_mem_cons]
  refine ⟨hagrees (by simp) htext (literalValue?_quoted m.exec) rfl,
    hagrees (by simp) hinterval (literalValue?_integer _) rfl,
    hagrees (by simp) hmode (literalValue?_modeName m.interval) rfl,
    hagrees (by simp) hrestart (literalValue?_integer _) rfl, ⟨?_, fun _ ↦ hflag⟩,
    List.forall_mem_nil _⟩
  refine iff_of_false ?_ (not_not_intro rfl)
  rintro ⟨v, -, hv⟩
  rw [hflag] at hv
  exact Option.some_ne_none v (hv.symm.trans (literalValue?_flag m.isJson))

theorem exists_assembled_agrees_iff (m : CustomModule) (interval : UInt64) :
    ∃ main bar settings readme,
      ofModule m interval = .ok (assembled m (defaults m interval) main bar settings readme) ∧
      (∀ p ∈ mainProperties,
        (Agrees (Artifact.document (manifest m.name (defaults m interval))) main p ↔
          p.setting ≠ "parseJson") ∧
        (p.setting = "parseJson" → fallback? main p = some (Value.flag m.isJson).write)) ∧
      (∀ p ∈ settingsProperties,
        (Agrees (Artifact.document (manifest m.name (defaults m interval))) settings p ↔
          p.setting ≠ "parseJson") ∧
        (p.setting = "parseJson" → fallback? settings p = some (Value.flag m.isJson).write)) := by
  obtain ⟨main, bar, settings, readmeText, hmain, hbar, hsettings, hreadme, -⟩ :=
    exists_renders m interval
  have hmanifest := manifestDefault?_manifest m.name (defaults m interval)
  refine ⟨_, _, _, _, ofModule_eq hmain hbar hsettings hreadme, agrees_iff hmanifest fun q hq ↦ ?_,
    agrees_iff hmanifest fun q hq ↦ ?_⟩
  · exact fallback?_of_renders exists_declaresAt_mainView (by decide) hmain hq
  · exact fallback?_of_renders exists_declaresAt_settingsView (by decide) hsettings hq

/-- **Four of the five defaults agree, and the flag does not.** Whatever the module and the default
interval are, the manifest can be read and holds the five defaults; in both views, what a property
falls back on denotes the value of its setting in the manifest, except that the flag is written with
a capital, which no literal is. -/
theorem agrees_iff_of_ofModule (m : CustomModule) (interval : UInt64) :
    ∃ plugin manifest main bar settings texts readme, ofModule m interval = .ok plugin ∧
      plugin.files = [⟨directory m ++ "manifest.json", manifest⟩, ⟨directory m ++ "Main.qml", main⟩,
        ⟨directory m ++ "BarWidget.qml", bar⟩, ⟨directory m ++ "Settings.qml", settings⟩,
        ⟨directory m ++ "i18n/en.json", texts⟩, ⟨directory m ++ "README.md", readme⟩] ∧
      (∀ setting, manifestDefault? manifest setting =
        (PluginDefaults.toJson (defaults m interval)).object? >>= (·.lookup setting)) ∧
      (∀ p ∈ mainProperties, (Agrees manifest main p ↔ p.setting ≠ "parseJson") ∧
        (p.setting = "parseJson" → fallback? main p = some (Value.flag m.isJson).write)) ∧
      (∀ p ∈ settingsProperties, (Agrees manifest settings p ↔ p.setting ≠ "parseJson") ∧
        (p.setting = "parseJson" → fallback? settings p = some (Value.flag m.isJson).write)) := by
  obtain ⟨main, bar, settings, readme, hplugin, hmain, hsettings⟩ :=
    exists_assembled_agrees_iff m interval
  exact ⟨_, _, main, bar, settings, _, readme, hplugin, rfl,
    manifestDefault?_manifest m.name (defaults m interval), hmain, hsettings⟩

/-- A module with a command and nothing else. -/
def clock : CustomModule :=
  .ofMembers "clock" "" [("exec", .string "date")] {}

/-- The flag of a module that asks for no JSON: `false` in its manifest, `False` in its views. -/
theorem not_agrees_clock :
    ∃ plugin manifest main bar settings texts readme, ofModule clock 60 = .ok plugin ∧
      plugin.files = [⟨directory clock ++ "manifest.json", manifest⟩,
        ⟨directory clock ++ "Main.qml", main⟩, ⟨directory clock ++ "BarWidget.qml", bar⟩,
        ⟨directory clock ++ "Settings.qml", settings⟩, ⟨directory clock ++ "i18n/en.json", texts⟩,
        ⟨directory clock ++ "README.md", readme⟩] ∧
      manifestDefault? manifest "parseJson" = some (.bool false) ∧
      fallback? main ⟨"  readonly property bool parseJson", "parseJson"⟩ =
        some ['F', 'a', 'l', 's', 'e'] ∧
      ¬Agrees manifest main ⟨"  readonly property bool parseJson", "parseJson"⟩ ∧
      ¬Agrees manifest settings ⟨"  property bool valueParseJson", "parseJson"⟩ := by
  obtain ⟨main, bar, settings, readme, hplugin, hmain, hsettings⟩ :=
    exists_assembled_agrees_iff clock 60
  have hmanifest := manifestDefault?_manifest clock.name (defaults clock 60)
  have hflag := hmain ⟨"  readonly property bool parseJson", "parseJson"⟩ (by decide)
  have hflag' := hsettings ⟨"  property bool valueParseJson", "parseJson"⟩ (by decide)
  exact ⟨_, _, main, bar, settings, _, readme, hplugin, rfl, hmanifest "parseJson", hflag.2 rfl,
    fun h ↦ hflag.1.mp h rfl, fun h ↦ hflag'.1.mp h rfl⟩

end BarBridge.Plugin
