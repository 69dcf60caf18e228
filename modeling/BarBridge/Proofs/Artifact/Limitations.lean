import BarBridge.Proofs.Artifact.Losses
import BarBridge.Proofs.Artifact.Wording
import BarBridge.Proofs.Command.Guarding
import BarBridge.Proofs.Module.Stems

/-!
# What a widget cannot do

A module can ask for more than a button on the bar can do. `Limitation` lists what it can ask for in
vain, with the word that a user would look for among the warnings. Of the five limitations two are
warned of whenever they are met, and two never are. The fifth depends on a setting that has nothing
to do with it: icons on plain output are warned of by the treatment that hands the output on, so a
format, which calls for another treatment, hides them (`limitation_told_iff`).

## Reading the warnings

A word can also stand in a line by accident. Most warnings have a fixed wording, and there it is
looked up. An announcement of an interval contains a number, but each of the words has a character
that is in no such announcement. A replaced name is quoted in its warning, but only three names are
ever replaced.
-/

namespace BarBridge

/-! ## Texts within texts -/

namespace Text

theorem infix_literal_iff {word line : String} {cs ds : List Char} (hword : word = String.ofList cs)
    (hline : line = String.ofList ds) : word.toList <:+: line.toList ↔ cs <:+: ds := by
  rw [hword, hline, String.toList_ofList, String.toList_ofList]

theorem mem_literal_iff {c : Char} {line : String} {cs : List Char}
    (hline : line = String.ofList cs) : c ∈ line.toList ↔ c ∈ cs := by
  rw [hline, String.toList_ofList]

end Text

open Text

/-! ## The limitations

An announcement has a number in it, so it cannot be looked at as a fixed text. But each word has a
character that is no digit, and that stands nowhere else in an announcement either (`mark`). This is
enough whatever the number is. -/

/-- What a module can ask for and a widget cannot do. -/
inductive Limitation where
  /-- Markup in the output is escaped. -/
  | markup
  /-- The text has a least length. -/
  | minLength
  /-- The command is started again some time after it has ended. -/
  | restart
  /-- Plain output has icons. -/
  | plainIcons
  /-- A name that denotes no file is kept. -/
  | name
  deriving DecidableEq, Repr

namespace Limitation

/-- The modules that ask for it. -/
def Concerns (m : CustomModule) : Limitation → Prop
  | markup => m.escapeMarkup = true
  | minLength => m.minLength.isSome = true
  | restart => m.restartInterval.isSome = true
  | plainIcons => m.icons ≠ [] ∧ m.isJson = false
  | name => isReplaced m.name = true

instance (m : CustomModule) : (l : Limitation) → Decidable (l.Concerns m)
  | markup => inferInstanceAs (Decidable (m.escapeMarkup = true))
  | minLength => inferInstanceAs (Decidable (m.minLength.isSome = true))
  | restart => inferInstanceAs (Decidable (m.restartInterval.isSome = true))
  | plainIcons => inferInstanceAs (Decidable (m.icons ≠ [] ∧ m.isJson = false))
  | name => inferInstanceAs (Decidable (isReplaced m.name = true))

/-- The modules whose warnings would tell of it. -/
def IsWatched (m : CustomModule) : Limitation → Prop
  | markup | minLength => False
  | restart | name => True
  | plainIcons => m.exec ≠ "" ∧ m.hasCustomFormat = false

/-- The word for it. -/
def word : Limitation → String
  | markup => "escape"
  | minLength => "min-length"
  | restart => "restart-interval"
  | plainIcons => "format-icons"
  | name => "name"

/-- Whether a line tells of it. -/
def IsMentioned (l : Limitation) (line : String) : Prop :=
  l.word.toList <:+: line.toList

instance (l : Limitation) (line : String) : Decidable (l.IsMentioned line) :=
  inferInstanceAs (Decidable (_ <:+: _))

/-- A character of the word that is in no announcement of an interval. -/
def mark : Limitation → Char
  | markup => 'c'
  | restart | plainIcons => '-'
  | minLength | name => 'm'

theorem mark_mem_word (l : Limitation) : l.mark ∈ l.word.toList := by
  cases l <;> exact (mem_literal_iff rfl).mpr (by decide)

theorem isDigit_mark (l : Limitation) : l.mark.isDigit = false := by
  cases l <;> rfl

theorem not_isMentioned_interpolated {l : Limitation} {opening rest : String} {cs ds : List Char}
    (hopening : opening = String.ofList cs) (hrest : rest = String.ofList ds)
    (hmark : l.mark ∉ cs ++ ds) (n : Nat) : ¬l.IsMentioned (opening ++ toString n ++ rest) := by
  intro hword
  have hmem : l.mark ∈ (opening ++ toString n ++ rest).toList := hword.subset l.mark_mem_word
  rw [String.toList_append, String.toList_append, List.mem_append, List.mem_append,
    mem_literal_iff hopening, mem_literal_iff hrest] at hmem
  rcases hmem with (h | h) | h
  · exact hmark (List.mem_append_left _ h)
  · exact absurd (isDigit_of_mem_toString h) (by rw [isDigit_mark]; decide)
  · exact hmark (List.mem_append_right _ h)

theorem isMentioned_interpolated {l : Limitation} {opening : String} (h : l.IsMentioned opening)
    (value rest : String) : l.IsMentioned (opening ++ value ++ rest) :=
  List.IsInfix.trans h (Text.prefix_interpolated opening value rest).isInfix

end Limitation

/-! ## The warnings -/

/-- What a warning is meant to tell of, where this is a limitation. -/
def Warning.limitation? : Warning → Option Limitation
  | iconsIgnored => some .plainIcons
  | restartUnsupported => some .restart
  | nameReplaced _ _ => some .name
  | _ => none

theorem eq_of_dashed {name s : String} (h : dashed name = s) (hdash : '-' ∉ s.toList) :
    name = s := by
  have hseparator : ∀ c ∈ name.toList, ¬(c = '/' ∨ c = '\\') := by
    intro c hc hsep
    refine hdash ?_
    rw [← h, dashed, String.toList_ofList, List.mem_map]
    exact ⟨c, hc, if_pos hsep⟩
  rw [← h, dashed_of_notMem (fun hc ↦ hseparator _ hc (.inl rfl))
    (fun hc ↦ hseparator _ hc (.inr rfl))]

theorem eq_of_isReplaced {name : String} (h : isReplaced name = true) :
    name = "" ∨ name = "." ∨ name = ".." := by
  rw [isReplaced, bne_iff_ne] at h
  rcases fileStem_cases name with ⟨hstem, -⟩ | ⟨hname, -⟩ | ⟨hname, -⟩ | ⟨hname, -⟩
  · exact absurd hstem h
  · exact .inl (eq_of_dashed hname (by decide))
  · exact .inr (.inl (eq_of_dashed hname (by decide)))
  · exact .inr (.inr (eq_of_dashed hname (by decide)))

theorem message_nameReplaced {name : String} (h : isReplaced name = true) :
    let line := (Warning.nameReplaced name (fileStem name)).message
    line = "module name `` cannot be used as a file name; written as `module`." ∨
      line = "module name `.` cannot be used as a file name; written as `dot`." ∨
      line = "module name `..` cannot be used as a file name; written as `dot-dot`." := by
  intro line
  rcases eq_of_isReplaced h with rfl | rfl | rfl
  · exact .inl (by decide +kernel)
  · exact .inr (.inl (by decide +kernel))
  · exact .inr (.inr (by decide +kernel))

namespace Limitation

variable {m : CustomModule} {default : UInt64} {w : Warning}

/-- **The warnings about a widget are worded as they are meant.** -/
theorem isMentioned_message_iff (h : w.AppliesTo m default) (l : Limitation) :
    l.IsMentioned w.message ↔ w.limitation? = some l := by
  cases w with
  | signalPolled s =>
    refine iff_of_false ?_ (Option.some_ne_none l).symm
    cases l <;> exact not_isMentioned_interpolated rfl rfl (by decide) s.toNat
  | intervalDefaulted s =>
    refine iff_of_false ?_ (Option.some_ne_none l).symm
    cases l <;> exact not_isMentioned_interpolated rfl rfl (by decide) s.toNat
  | nameReplaced name stem =>
    obtain ⟨hreplaced, rfl, rfl⟩ := h
    have hlimitation : (Warning.nameReplaced m.name (fileStem m.name)).limitation? =
        some Limitation.name := rfl
    rw [hlimitation]
    -- The name is quoted in the line, but there are only three such lines.
    rcases message_nameReplaced hreplaced with hline | hline | hline <;>
    · rw [hline]
      cases l <;> exact (infix_literal_iff rfl rfl).trans (by decide +kernel)
  | _ => cases l <;> exact (infix_literal_iff rfl rfl).trans (by decide +kernel)

theorem exists_appliesTo_iff (m : CustomModule) (default : UInt64) (l : Limitation) :
    (∃ w : Warning, w.AppliesTo m default ∧ w.limitation? = some l) ↔
      l.Concerns m ∧ l.IsWatched m := by
  constructor
  · rintro ⟨w, happlies, hl⟩
    cases w with
    | iconsIgnored =>
      obtain rfl : plainIcons = l := Option.some.inj hl
      obtain ⟨htreatment, hicons⟩ := happlies
      obtain ⟨hexec, hplain, hformat⟩ := Treatment.ofModule_eq_iff.mp htreatment
      exact ⟨⟨hicons, hplain⟩, hexec, hformat⟩
    | restartUnsupported =>
      obtain rfl : restart = l := Option.some.inj hl
      exact ⟨happlies, trivial⟩
    | nameReplaced name stem =>
      obtain rfl : Limitation.name = l := Option.some.inj hl
      exact ⟨happlies.1, trivial⟩
    | _ => cases hl
  · rintro ⟨hconcerns, hwatched⟩
    cases l with
    | markup | minLength => exact hwatched.elim
    | restart => exact ⟨.restartUnsupported, hconcerns, rfl⟩
    | plainIcons =>
      obtain ⟨hicons, hplain⟩ := hconcerns
      obtain ⟨hexec, hformat⟩ := hwatched
      exact ⟨.iconsIgnored,
        ⟨Treatment.ofModule_of_suits ⟨hexec, hplain, hformat⟩, hicons⟩, rfl⟩
    | name => exact ⟨.nameReplaced m.name (fileStem m.name), ⟨hconcerns, rfl, rfl⟩, rfl⟩

/-! ## The notes

What the warnings pass over is not lost to the program: there is a note on every limitation that is
not watched. So it is only the warnings that leave something out. -/

theorem exists_note (options : Options) {l : Limitation} (hconcerns : l.Concerns m)
    (hwatched : ¬l.IsWatched m) :
    ∃ note : Note, note.AppliesTo m options ∧ l.IsMentioned note.message := by
  cases l with
  | markup => exact ⟨.markupEscaped, hconcerns, by decide +kernel⟩
  | minLength =>
    obtain ⟨length, hlength⟩ := Option.isSome_iff_exists.mp hconcerns
    exact ⟨.minLength length, hlength, isMentioned_interpolated (by decide +kernel) _ _⟩
  | plainIcons =>
    exact ⟨.icons m.icons.length, ⟨hconcerns.1, rfl⟩,
      isMentioned_interpolated (by decide +kernel) _ _⟩
  | restart | name => exact absurd trivial hwatched

end Limitation

/-! ## What is told -/

/-- **What is told of the limitations.** Whatever a module is like, a limitation is mentioned among
the warnings about its widget exactly if the module asks for it and the limitation is watched. Two
of the five are not watched in any module: that markup is not escaped, and that a text has no least
length. Icons on plain output are watched where a command is handed on without a format of its own.
A limitation that the warnings pass over is mentioned in the report on the module. -/
theorem limitation_told_iff (m : CustomModule) (options : Options) (l : Limitation) :
    let warnings := (Widget.warnings m (Command.ofModule m) options.defaultInterval).map (·.message)
    let notes := (Report.ofModule m options).notes.map (·.message)
    ((∃ line ∈ warnings, l.IsMentioned line) ↔ l.Concerns m ∧ l.IsWatched m) ∧
      (l.Concerns m → ¬(∃ line ∈ warnings, l.IsMentioned line) →
        ∃ line ∈ notes, l.IsMentioned line) := by
  intro warnings notes
  have hwarned : (∃ line ∈ warnings, l.IsMentioned line) ↔ l.Concerns m ∧ l.IsWatched m := by
    rw [← Limitation.exists_appliesTo_iff m options.defaultInterval l]
    simp only [warnings, List.mem_map, exists_exists_and_eq_and, Widget.mem_warnings_iff]
    exact exists_congr fun w ↦
      and_congr_right fun happlies ↦ Limitation.isMentioned_message_iff happlies l
  refine ⟨hwarned, fun hconcerns huntold ↦ ?_⟩
  obtain ⟨note, happlies, hmentioned⟩ := Limitation.exists_note options hconcerns
    fun hwatched ↦ huntold (hwarned.mpr ⟨hconcerns, hwatched⟩)
  exact ⟨note.message,
    List.mem_map_of_mem ((Report.mem_notesOf_iff m options note).mpr happlies), hmentioned⟩

/-- A module can ask for its markup to be escaped and for a least length of its text, and its widget
has no warnings. Icons on plain output are passed over as well if there is a format. -/
theorem limitations_untold :
    let bare := CustomModule.ofMembers "clock" "config"
      [("exec", .string "date"), ("interval", .number (.int 1)), ("escape", .bool true),
        ("min-length", .number (.int 4))] {}
    let framed := CustomModule.ofMembers "clock" "config"
      [("exec", .string "date"), ("interval", .number (.int 1)),
        ("format", .string "<\x7b\x7d>"), ("format-icons", .array [.string "a"])] {}
    Limitation.markup.Concerns bare ∧ Limitation.minLength.Concerns bare ∧
      Widget.warnings bare (Command.ofModule bare) 60 = [] ∧
      Limitation.plainIcons.Concerns framed ∧
      (Widget.warnings framed (Command.ofModule framed) 60).map (·.message) =
        ["Applied format to plain-text output using python wrapper."] ∧
      ¬Limitation.plainIcons.IsMentioned
        "Applied format to plain-text output using python wrapper." := by
  intro bare framed
  exact ⟨by decide +kernel, by decide +kernel, by decide +kernel, by decide +kernel,
    by decide +kernel, by decide +kernel⟩

end BarBridge
