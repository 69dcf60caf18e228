import BarBridge.Text.ShellWord

/-!
# Reading shell words

A command line is cut into words as a POSIX shell does it. Blanks outside of quotes separate words;
between single quotes every character stands for itself; elsewhere a backslash takes its meaning
from the next character. Whatever else the shell would act on, a dollar sign or a semicolon for
instance, is refused outside of quotes, so a line that is read at all has words and nothing else.

What `shellQuote` writes is read as one word with exactly the text that was quoted, whatever stands
behind it: `wordsFrom_shellQuote`. The two forms it has come together there: behind either, the
reader is in the middle of a word that consists of the text.
-/

namespace BarBridge.Text

/-- Whether a character separates words. -/
def isWordGap (c : Char) : Bool :=
  c == ' ' || c == '\t'

/-- Whether the shell acts on a character where it is not quoted. -/
def isShellSpecial (c : Char) : Bool :=
  "|&;<>()$`\"*?[#~\n".toList.contains c

/-- Where the reader of words stands; the characters of the present word are kept newest first. -/
inductive WordPlace where
  | between
  | bare (read : List Char)
  /-- Between single quotes. -/
  | quoted (read : List Char)
  /-- Behind a backslash. -/
  | escaped (read : List Char)
  deriving Repr

/-- The words of the rest of a line. -/
def wordsFrom : WordPlace → List Char → Option (List (List Char))
  | .between, [] => some []
  | .bare read, [] => some [read.reverse]
  | .quoted _, [] | .escaped _, [] => none
  | .between, c :: cs =>
    if isWordGap c then wordsFrom .between cs
    else if c = '\'' then wordsFrom (.quoted []) cs
    else if c = '\\' then wordsFrom (.escaped []) cs
    else if isShellSpecial c then none
    else wordsFrom (.bare [c]) cs
  | .bare read, c :: cs =>
    if isWordGap c then (wordsFrom .between cs).map (read.reverse :: ·)
    else if c = '\'' then wordsFrom (.quoted read) cs
    else if c = '\\' then wordsFrom (.escaped read) cs
    else if isShellSpecial c then none
    else wordsFrom (.bare (c :: read)) cs
  | .quoted read, c :: cs =>
    if c = '\'' then wordsFrom (.bare read) cs else wordsFrom (.quoted (c :: read)) cs
  | .escaped read, c :: cs => wordsFrom (.bare (c :: read)) cs

/-- The words of a line. -/
def shellWords (line : List Char) : Option (List (List Char)) :=
  wordsFrom .between line

/-- The text that a single word stands for. -/
def unquote? (word : List Char) : Option (List Char) :=
  match shellWords word with
  | some [text] => some text
  | _ => none

/-! ## Values that stand as they are -/

theorem plain_of_isShellPlain {c : Char} (h : isShellPlain c = true) :
    isWordGap c = false ∧ c ≠ '\'' ∧ c ≠ '\\' ∧ isShellSpecial c = false := by
  have hne : ∀ d : Char, isShellPlain d = false → c ≠ d := by
    rintro d hd rfl
    rw [h] at hd
    contradiction
  refine ⟨?_, hne _ (by decide), hne _ (by decide), ?_⟩
  · simp [isWordGap, hne ' ' (by decide), hne '\t' (by decide)]
  · refine Bool.eq_false_iff.mpr fun hspecial ↦ ?_
    have hall : "|&;<>()$`\"*?[#~\n".toList.all (fun d ↦ !isShellPlain d) = true := by decide
    have hc := List.all_eq_true.mp hall c (List.contains_iff_mem.mp hspecial)
    exact hne c (by simpa using hc) rfl

theorem wordsFrom_bare {read s rest : List Char} (h : s.all isShellPlain = true) :
    wordsFrom (.bare read) (s ++ rest) = wordsFrom (.bare (s.reverse ++ read)) rest := by
  induction s generalizing read with
  | nil => rfl
  | cons c s ih =>
    rw [List.all_cons, Bool.and_eq_true_iff] at h
    obtain ⟨hc, hs⟩ := h
    obtain ⟨hgap, hquote, hslash, hspecial⟩ := plain_of_isShellPlain hc
    rw [List.cons_append, wordsFrom, if_neg (by simp [hgap]), if_neg hquote, if_neg hslash,
      if_neg (by simp [hspecial]), ih hs]
    simp

/-! ## Values in quotes

For a quote in the value the quotes are closed, and opened again behind it. The word goes on
meanwhile, so the reader comes out of it as from any other character. -/

theorem wordsFrom_shellEscape (c : Char) (read rest : List Char) :
    wordsFrom (.quoted read) (shellEscape c ++ rest) = wordsFrom (.quoted (c :: read)) rest := by
  rw [shellEscape]
  split
  · next h =>
    subst h
    rfl
  · next h => rw [List.singleton_append, wordsFrom, if_neg h]

theorem wordsFrom_quoted (s read rest : List Char) :
    wordsFrom (.quoted read) (s.flatMap shellEscape ++ '\'' :: rest) =
      wordsFrom (.bare (s.reverse ++ read)) rest := by
  induction s generalizing read with
  | nil => rfl
  | cons c s ih =>
    rw [List.flatMap_cons, List.append_assoc, wordsFrom_shellEscape, ih]
    simp

/-- **A value is read as one word.** -/
theorem wordsFrom_shellQuote (value : String) (rest : List Char) :
    wordsFrom .between ((shellQuote value).toList ++ rest) =
      wordsFrom (.bare value.toList.reverse) rest := by
  rw [shellQuote]
  split
  · next h =>
    -- The first character begins the word, and the others join it.
    obtain ⟨hne, hplain⟩ := h
    rcases hvalue : value.toList with _ | ⟨c, s⟩
    · exact absurd (String.toList_eq_nil_iff.mp hvalue) hne
    · rw [hvalue, List.all_cons, Bool.and_eq_true_iff] at hplain
      obtain ⟨hgap, hquote, hslash, hspecial⟩ := plain_of_isShellPlain hplain.1
      rw [List.cons_append, wordsFrom, if_neg (by simp [hgap]), if_neg hquote, if_neg hslash,
        if_neg (by simp [hspecial]), wordsFrom_bare hplain.2, List.reverse_cons]
  · have hquoted := wordsFrom_quoted value.toList [] rest
    rw [List.append_nil] at hquoted
    rw [String.toList_ofList, List.cons_append, List.cons_append, List.append_assoc]
    exact hquoted

theorem unquote?_shellQuote (value : String) :
    unquote? (shellQuote value).toList = some value.toList := by
  have hwords := wordsFrom_shellQuote value []
  rw [List.append_nil] at hwords
  rw [unquote?, shellWords, hwords, wordsFrom, List.reverse_reverse]

theorem notMem_shellQuote {value : String} {c : Char} (hquote : c ≠ '\'') (hslash : c ≠ '\\')
    (h : c ∉ value.toList) : c ∉ (shellQuote value).toList := by
  rw [shellQuote]
  split
  · exact h
  · intro hmem
    simp only [String.toList_ofList, List.cons_append, List.mem_cons, List.mem_append,
      List.mem_flatMap, List.not_mem_nil, or_false] at hmem
    rcases hmem with hmem | ⟨d, hd, hmem⟩ | hmem
    · exact hquote hmem
    · rw [shellEscape] at hmem
      split at hmem
      · simp [hquote, hslash] at hmem
      · rw [List.mem_singleton.mp hmem] at h
        exact h hd
    · exact hquote hmem

end BarBridge.Text
