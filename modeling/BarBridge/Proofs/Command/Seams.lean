import BarBridge.Module.Members
import BarBridge.Proofs.Command.Guarding
import BarBridge.Proofs.Text.ShellScan

/-!
# The seams of a command line

The command of the user and its condition are pasted into a line as they are, and what stands around
them is meant for the shell: the opening and closing of the guard, the pipe into the filter, the
words of the filter. Whether the shell sees it that way depends on where it stands when it gets
there. `CustomModule.parts` cuts a line into what was given and what stands around it, and
`ReadApart` says that everything around is read in the normal state, neither quoted nor commented
out.

## What a text can do to the line behind it

A text that leaves a quote open, or ends with a backslash, is not complete, and nothing is claimed
of it. A complete text can still end in a comment, and a comment goes on to the end of the line.
Nothing else goes wrong: a line is read apart exactly if none of its texts ends in a comment with
something around it to follow (`wrappers_read_iff`). The guard puts its closing on the line of the
command, so a command with a comment at its end takes the closing of its guard with it
(`closing_in_comment`).
-/

namespace BarBridge

open Text

/-- A part of a command line. -/
inductive LinePart where
  /-- What the user has written. -/
  | given (text : String)
  /-- What stands around it. -/
  | wrapper (text : String)
  deriving DecidableEq, Repr

namespace LinePart

def text : LinePart → List Char
  | given text | wrapper text => text.toList

/-- The line that parts make up. -/
def join (parts : List LinePart) : List Char :=
  parts.flatMap text

theorem join_nil : join [] = [] := rfl

theorem join_cons (part : LinePart) (parts : List LinePart) :
    join (part :: parts) = part.text ++ join parts := rfl

theorem join_append (parts parts' : List LinePart) :
    join (parts ++ parts') = join parts ++ join parts' :=
  List.flatMap_append

/-- Whether everything around the texts of the user is read in the normal state, if the first part
is read in the given one. -/
def ReadApart : ShellState → List LinePart → Prop
  | _, [] => True
  | s, given text :: parts => ReadApart (s.scan text.toList) parts
  | s, wrapper text :: parts => s.isNormal = true ∧ ReadApart (s.scan text.toList) parts

theorem readApart_iff {s : ShellState} {parts : List LinePart} :
    ReadApart s parts ↔ ∀ before text after, parts = before ++ wrapper text :: after →
      (s.scan (join before)).isNormal = true := by
  induction parts generalizing s with
  | nil =>
    refine iff_of_true trivial fun before text after h ↦ ?_
    simp at h
  | cons part parts ih =>
    have hjoin : ∀ before, s.scan (join (part :: before)) = (s.scan part.text).scan (join before) :=
      fun before ↦ ShellState.scan_append s part.text (join before)
    constructor
    · intro h before text after heq
      rcases before with _ | ⟨first, before⟩
      · obtain ⟨rfl, -⟩ := List.cons_eq_cons.mp heq
        exact h.1
      · obtain ⟨rfl, rfl⟩ := List.cons_eq_cons.mp heq
        rw [hjoin]
        refine ih.mp ?_ before text after rfl
        cases part with
        | given => exact h
        | wrapper => exact h.2
    · intro h
      have hrest : ReadApart (s.scan part.text) parts := by
        refine ih.mpr fun before text after heq ↦ ?_
        rw [← hjoin]
        exact h (part :: before) text after (congrArg (part :: ·) heq)
      cases part with
      | given => exact hrest
      | wrapper text => exact ⟨h [] text parts rfl, hrest⟩

theorem readApart_wrapper {inWord : Bool} {text : String} {parts : List LinePart} {s : ShellState}
    (hscan : ShellState.scan (.normal inWord) text.toList = s) :
    ReadApart (.normal inWord) (wrapper text :: parts) ↔ ReadApart s parts := by
  rw [ReadApart, hscan]
  exact and_iff_right rfl

/-- **A complete text and what follows it.** What follows is read in the normal state unless the
text ends in a comment, and then goes on the same, wherever in a word the text has ended. -/
theorem readApart_given {text follows : String} {parts : List LinePart} {s : ShellState}
    (hcomplete : (ShellState.behind text.toList).isComplete = true)
    (hscan : ∀ inWord, ShellState.scan (.normal inWord) follows.toList = s) :
    ReadApart (.normal false) (given text :: wrapper follows :: parts) ↔
      ShellState.behind text.toList ≠ .comment ∧ ReadApart s parts := by
  change (ShellState.behind text.toList).isNormal = true ∧
    ReadApart ((ShellState.behind text.toList).scan follows.toList) parts ↔ _
  rw [ShellState.isNormal_iff_of_isComplete hcomplete]
  refine and_congr_right fun hcomment ↦ ?_
  obtain ⟨inWord, hnormal⟩ := ShellState.isNormal_iff.mp
    ((ShellState.isNormal_iff_of_isComplete hcomplete).mpr hcomment)
  rw [hnormal, hscan]

end LinePart

/-! ## The parts of a line

A line could be cut up in any way. What makes these the right parts is that they are joined to the
line of the module again (`join_parts`), and that the texts among them are the command and the
condition. -/

namespace Filter

/-- What follows the command in the line of a filter, up to the words of the filter. -/
def handover : String :=
  "); printf '%s' \"$output\" | python3 -c"

/-- A value as a word behind another. -/
def furtherWord (value : String) : LinePart :=
  .wrapper (" " ++ shellQuote value)

/-- The parts of the line of a filter: the words are the program and its arguments. -/
def parts (exec : String) (words : List String) : List LinePart :=
  .wrapper opening :: .given exec :: .wrapper handover :: words.map furtherWord

/-- The program of a filter and its arguments in base64. -/
def words (program : String) (values : List (List Char)) : List String :=
  program :: values.map fun v ↦ String.ofList (base64 (utf8 v))

theorem text_furtherWord (value : String) :
    (furtherWord value).text = " ".toList ++ (shellQuote value).toList :=
  String.toList_append

theorem join_furtherWords (values : List String) :
    LinePart.join (values.map furtherWord) =
      spaced (values.map fun v ↦ (shellQuote v).toList) := by
  induction values with
  | nil => rfl
  | cons v values ih =>
    rw [List.map_cons, List.map_cons, spaced_cons, LinePart.join_cons, ih, text_furtherWord]

theorem join_parts (program exec : String) (values : List (List Char)) :
    LinePart.join (parts exec (words program values)) = line program exec values := by
  have hwords : (words program values).map (fun w ↦ (shellQuote w).toList) =
      (shellQuote program).toList :: values.map fun v ↦ (argument v).toList := by
    rw [words, List.map_cons, List.map_map]
    rfl
  have hcapture : opening.toList ++ exec.toList ++ (remainder program).toList =
      opening.toList ++ exec.toList ++ handover.toList ++ " ".toList ++
        (shellQuote program).toList := by
    have hline : opening ++ exec ++ remainder program =
        opening ++ exec ++ handover ++ " " ++ shellQuote program :=
      (capture_append program exec).symm
    simpa only [String.toList_append] using congrArg String.toList hline
  rw [parts, LinePart.join_cons, LinePart.join_cons, LinePart.join_cons, join_furtherWords, hwords,
    spaced_cons, line, hcapture]
  simp only [LinePart.text, List.append_assoc]

open LinePart in
theorem readApart_furtherWords (values : List String) (parts : List LinePart) :
    ReadApart (.normal true) (values.map furtherWord ++ parts) ↔
      ReadApart (.normal true) parts := by
  induction values with
  | nil => rfl
  | cons v values ih =>
    have hscan : ShellState.scan (.normal true) (" " ++ shellQuote v).toList = .normal true := by
      rw [String.toList_append, ShellState.scan_append]
      exact ShellState.scan_shellQuote v false
    rw [List.map_cons, List.cons_append, furtherWord, readApart_wrapper hscan, ih]

end Filter

namespace CustomModule

/-- The parts of the line of a module, but for its guard. -/
def unguardedParts (m : CustomModule) : List LinePart :=
  if (Treatment.ofModule m).isFilter then
    if m.isJson then
      Filter.parts m.exec
        (Filter.words Filter.jsonProgram [Filter.iconList m.icons, m.format.toList])
    else Filter.parts m.exec (Filter.words Filter.plainProgram [m.format.toList])
  else [.given m.exec]

/-- The parts of the line of a module. -/
def parts (m : CustomModule) : List LinePart :=
  if m.exec = "" then []
  else if m.execIf = "" then m.unguardedParts
  else
    .wrapper "if " :: .given m.execIf :: .wrapper "; then " ::
      (m.unguardedParts ++ [.wrapper "; fi"])

open LinePart

theorem join_unguardedParts (m : CustomModule) :
    join m.unguardedParts = ((Treatment.ofModule m).apply m).toList := by
  rw [(Treatment.suits_ofModule m).apply_eq, unguardedParts, filtered]
  split
  · split
    · rw [Filter.join_parts, Filter.toList_json]
    · rw [Filter.join_parts, Filter.toList_plain]
  · exact List.append_nil _

theorem join_parts (m : CustomModule) : join m.parts = (Command.ofModule m).line.toList := by
  rw [Command.line_ofModule, parts, Command.guarded]
  split
  · rfl
  split
  · exact m.join_unguardedParts
  · rw [join_cons, join_cons, join_cons, join_append, join_unguardedParts, join_cons, join_nil]
    simp only [LinePart.text, String.toList_append, List.append_assoc, List.append_nil]

/-! ## Reading the seams

The seams are behind the condition, behind the command, and in front of the closing of the guard. At
each of them the reader is behind a complete text, and `readApart_given` says what becomes of it
there. Only the last one asks for a case distinction: it has the command in front of it, or a
filter. -/

theorem exists_unguardedParts (m : CustomModule) :
    if (Treatment.ofModule m).isFilter then ∃ words, m.unguardedParts = Filter.parts m.exec words
    else m.unguardedParts = [.given m.exec] := by
  rw [unguardedParts]
  split
  · split
    · exact ⟨_, rfl⟩
    · exact ⟨_, rfl⟩
  · rfl

variable {m : CustomModule}

theorem readApart_parts {exec : String} {words : List String} {parts : List LinePart}
    (h : (ShellState.behind exec.toList).isComplete = true) :
    ReadApart (.normal false) (Filter.parts exec words ++ parts) ↔
      ShellState.behind exec.toList ≠ .comment ∧ ReadApart (.normal true) parts := by
  have hopening : ShellState.scan (.normal false) Filter.opening.toList = .normal false := by decide
  have hhandover : ∀ inWord,
      ShellState.scan (.normal inWord) Filter.handover.toList = .normal true := by decide
  rw [Filter.parts, List.cons_append, List.cons_append, List.cons_append,
    readApart_wrapper hopening, readApart_given h hhandover, Filter.readApart_furtherWords]

theorem readApart_unguardedParts (h : (ShellState.behind m.exec.toList).isComplete = true) :
    ReadApart (.normal false) m.unguardedParts ↔
      ((Treatment.ofModule m).isFilter = true → ShellState.behind m.exec.toList ≠ .comment) := by
  have hparts := m.exists_unguardedParts
  split at hparts
  · next hfilter =>
    obtain ⟨words, hparts⟩ := hparts
    rw [hparts, ← List.append_nil (Filter.parts m.exec words), readApart_parts h, hfilter]
    exact ⟨fun h _ ↦ h.1, fun h ↦ ⟨h rfl, trivial⟩⟩
  · next hfilter =>
    rw [hparts]
    exact iff_of_true trivial fun h ↦ absurd h hfilter

theorem readApart_closed (h : (ShellState.behind m.exec.toList).isComplete = true) :
    ReadApart (.normal false) (m.unguardedParts ++ [.wrapper "; fi"]) ↔
      ShellState.behind m.exec.toList ≠ .comment := by
  have hparts := m.exists_unguardedParts
  split at hparts
  · obtain ⟨words, hparts⟩ := hparts
    rw [hparts, readApart_parts h]
    exact and_iff_left ⟨rfl, trivial⟩
  · rw [hparts, List.singleton_append, readApart_given h (s := .normal true) (by decide)]
    exact and_iff_left trivial

end CustomModule

open LinePart in
/-- **Everything around the texts of the user is read apart from them, unless a comment runs on.**
Let a command and its condition be complete, which is to leave no quote open and no backslash
pending. Then whatever stands around them in the line of the module is read in the normal state
if and only if the condition does not end in a comment, nor the command where a guard or a filter
follows it. -/
theorem wrappers_read_iff (m : CustomModule) (hexec : m.exec ≠ "")
    (hcommand : (ShellState.behind m.exec.toList).isComplete = true)
    (hcondition : (ShellState.behind m.execIf.toList).isComplete = true) :
    join m.parts = (Command.ofModule m).line.toList ∧
      ((∀ before text after, m.parts = before ++ .wrapper text :: after →
          (ShellState.behind (join before)).isNormal = true) ↔
        ShellState.behind m.execIf.toList ≠ .comment ∧
          (m.execIf ≠ "" ∨ m.NeedsFilter → ShellState.behind m.exec.toList ≠ .comment)) := by
  refine ⟨m.join_parts, ?_⟩
  have hfilter : (Treatment.ofModule m).isFilter = true ↔ m.NeedsFilter := by
    rw [(Treatment.suits_ofModule m).isFilter_iff, and_iff_right hexec]
  refine readApart_iff.symm.trans ?_
  rw [CustomModule.parts, if_neg hexec]
  by_cases hguard : m.execIf = ""
  · have hempty : ShellState.behind m.execIf.toList ≠ .comment := by
      rw [hguard]
      decide
    rw [if_pos hguard, CustomModule.readApart_unguardedParts hcommand, hfilter,
      and_iff_right hempty, or_iff_right (not_not_intro hguard)]
  · have hopening : ShellState.scan (.normal false) "if ".toList = .normal false := by decide
    rw [if_neg hguard, readApart_wrapper hopening,
      readApart_given hcondition (s := .normal false) (by decide),
      CustomModule.readApart_closed hcommand, forall_prop_of_true (.inl hguard)]

/-- Hashes in quotes and comments that end with their line do no harm, also with a filter in
between. -/
theorem wrappers_read_clock :
    let m := CustomModule.ofMembers "clock" "config"
      [("exec", .string "date '+# %R' # local\n"), ("exec-if", .string "test \"$TZ\" # set\n"),
        ("format", .string "<\x7b\x7d>")] {}
    m.exec ≠ "" ∧ (ShellState.behind m.exec.toList).isComplete = true ∧
      (ShellState.behind m.execIf.toList).isComplete = true ∧ m.parts.length = 9 ∧
      ∀ before text after, m.parts = before ++ .wrapper text :: after →
        (ShellState.behind (LinePart.join before)).isNormal = true := by
  intro m
  have hexec : m.exec ≠ "" := by decide
  have hcommand : (ShellState.behind m.exec.toList).isComplete = true := by decide
  have hcondition : (ShellState.behind m.execIf.toList).isComplete = true := by decide
  exact ⟨hexec, hcommand, hcondition, by decide +kernel,
    (wrappers_read_iff m hexec hcommand hcondition).2.mpr ⟨by decide, fun _ ↦ by decide⟩⟩

/-- A comment at the end of a command takes the closing of the guard with it, so that the guard is
never closed. -/
theorem closing_in_comment :
    let m := CustomModule.ofMembers "clock" "config"
      [("exec", .string "date # now"), ("exec-if", .string "true")] {}
    (ShellState.behind m.exec.toList).isComplete = true ∧
      (ShellState.behind m.execIf.toList).isComplete = true ∧
      (Command.ofModule m).line = "if true; then date # now; fi" ∧
      ∃ before, m.parts = before ++ [.wrapper "; fi"] ∧
        ShellState.behind (LinePart.join before) = .comment := by
  intro m
  refine ⟨by decide, by decide, by decide +kernel,
    [.wrapper "if ", .given "true", .wrapper "; then ", .given "date # now"], by decide +kernel, ?_⟩
  decide

end BarBridge
