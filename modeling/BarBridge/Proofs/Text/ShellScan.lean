import BarBridge.Proofs.Text.ShellWord

/-!
# Scanning shell text

A shell reads a line from left to right, and what a character means depends on what has been read
before it: whether a quote is open, whether the line has turned into a comment, whether a backslash
stands in front. This much can be told by a machine with a few states. A backslash takes its meaning
from the next character, except between single quotes and in a comment, where it has none of its
own; with a line feed behind it both are gone, so whether a word has begun does not change. A
comment begins with `#`, but only where a word would begin, and goes up to the end of the line.

## Texts that are put together

The state behind two texts is the state behind the second, scanned from where the first ends
(`scan_append`). So a text that is pasted into a line is read as on its own if the line in front of
it ends where a word would begin, and the text behind it is read in the normal state if the pasted
text ends in it. A text that ends outside quotes with no backslash pending is complete. That leaves
it one way of reaching behind itself, which is to end in a comment (`isComplete_iff`).
-/

namespace BarBridge.Text

/-- Where a reader of shell text stands. -/
inductive ShellState where
  /-- Outside of quotes; whether a word has begun. -/
  | normal (inWord : Bool)
  | singleQuoted
  | doubleQuoted
  /-- Behind `#`, up to the end of the line. -/
  | comment
  /-- Behind a backslash outside of quotes; whether a word had begun before it. -/
  | escaped (inWord : Bool)
  /-- Behind a backslash in double quotes. -/
  | escapedInQuotes
  deriving DecidableEq, Repr

/-- Whether a word ends before a character that is not quoted. -/
def endsWord (c : Char) : Bool :=
  isWordGap c || "|&;<>()\n".toList.contains c

namespace ShellState

/-- The state behind a character. -/
def next : ShellState → Char → ShellState
  | normal inWord, c =>
    if c = '\'' then singleQuoted
    else if c = '"' then doubleQuoted
    else if c = '\\' then escaped inWord
    else if c = '#' ∧ inWord = false then comment
    else normal !endsWord c
  | singleQuoted, c => if c = '\'' then normal true else singleQuoted
  | doubleQuoted, c =>
    if c = '"' then normal true else if c = '\\' then escapedInQuotes else doubleQuoted
  | comment, c => if c = '\n' then normal false else comment
  | escaped inWord, c => if c = '\n' then normal inWord else normal true
  | escapedInQuotes, _ => doubleQuoted

/-- The state behind a text. -/
def scan (s : ShellState) (text : List Char) : ShellState :=
  text.foldl next s

/-- The state behind a text that stands alone. -/
def behind (text : List Char) : ShellState :=
  scan (normal false) text

def isNormal : ShellState → Bool
  | normal _ => true
  | _ => false

/-- Whether no quote is open and no backslash pending. -/
def isComplete : ShellState → Bool
  | normal _ | comment => true
  | _ => false

theorem scan_append (s : ShellState) (text text' : List Char) :
    scan s (text ++ text') = scan (scan s text) text' :=
  List.foldl_append

theorem isNormal_iff {s : ShellState} : s.isNormal = true ↔ ∃ inWord, s = normal inWord := by
  constructor
  · intro h
    cases s with
    | normal inWord => exact ⟨inWord, rfl⟩
    | _ => contradiction
  · rintro ⟨inWord, rfl⟩
    rfl

/-- A complete text ends in the normal state or in a comment. -/
theorem isComplete_iff {s : ShellState} :
    s.isComplete = true ↔ s.isNormal = true ∨ s = comment := by
  cases s <;> simp [isComplete, isNormal]

theorem isNormal_iff_of_isComplete {s : ShellState} (h : s.isComplete = true) :
    s.isNormal = true ↔ s ≠ comment := by
  constructor
  · rintro hnormal rfl
    contradiction
  · exact (isComplete_iff.mp h).resolve_right

/-! ## Quoted values

A value that has been quoted is one word for the scan too: it is left in the normal state, whatever
the value is. -/

theorem next_of_isShellPlain {c : Char} (h : isShellPlain c = true) (inWord : Bool) :
    next (normal inWord) c = normal true := by
  obtain ⟨hgap, hquote, hslash, hspecial⟩ := plain_of_isShellPlain h
  have hne : ∀ d ∈ "|&;<>()$`\"*?[#~\n".toList, c ≠ d := by
    rintro d hd rfl
    rw [isShellSpecial, List.contains_iff_mem.mpr hd] at hspecial
    contradiction
  have hends : endsWord c = false := by
    rw [endsWord, hgap, Bool.false_or, ← Bool.not_eq_true, List.contains_iff_mem]
    intro hmem
    have hall : "|&;<>()\n".toList.all ("|&;<>()$`\"*?[#~\n".toList.contains ·) = true := by decide
    exact hne c (List.contains_iff_mem.mp (List.all_eq_true.mp hall c hmem)) rfl
  rw [next, if_neg hquote, if_neg (hne '"' (by decide)), if_neg hslash,
    if_neg fun hhash ↦ hne '#' (by decide) hhash.1, hends]
  rfl

theorem scan_of_isShellPlain {value : List Char} (h : value.all isShellPlain = true) :
    scan (normal true) value = normal true := by
  induction value with
  | nil => rfl
  | cons c value ih =>
    rw [List.all_cons, Bool.and_eq_true] at h
    rw [scan, List.foldl_cons, next_of_isShellPlain h.1]
    exact ih h.2

theorem scan_shellEscape (c : Char) : scan singleQuoted (shellEscape c) = singleQuoted := by
  rw [shellEscape]
  split
  · rfl
  · next h => exact if_neg h

theorem scan_flatMap_shellEscape (value : List Char) :
    scan singleQuoted (value.flatMap shellEscape) = singleQuoted := by
  induction value with
  | nil => rfl
  | cons c value ih => rw [List.flatMap_cons, scan_append, scan_shellEscape, ih]

/-- **A quoted value ends in the normal state**, in the middle of a word. -/
theorem scan_shellQuote (value : String) (inWord : Bool) :
    scan (normal inWord) (shellQuote value).toList = normal true := by
  rw [shellQuote]
  split
  · next h =>
    obtain ⟨hne, hplain⟩ := h
    obtain ⟨c, cs, hvalue⟩ :=
      List.exists_cons_of_ne_nil fun hnil ↦ hne (String.toList_eq_nil_iff.mp hnil)
    rw [hvalue, List.all_cons, Bool.and_eq_true] at hplain
    rw [hvalue, scan, List.foldl_cons, next_of_isShellPlain hplain.1]
    exact scan_of_isShellPlain hplain.2
  · rw [String.toList_ofList, List.cons_append, scan, List.foldl_cons]
    change scan singleQuoted (value.toList.flatMap shellEscape ++ ['\'']) = normal true
    rw [scan_append, scan_flatMap_shellEscape]
    rfl

end ShellState

end BarBridge.Text
