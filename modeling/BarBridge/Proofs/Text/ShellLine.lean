import BarBridge.Proofs.Text.ShellScan

/-!
# Lines of quoted values

Quoted values with a space between each two of them make up a line, and the shell takes the line
apart into the values again. Nothing is asked of the values: they may be empty, begin or end with a
quote, or be made of characters that the shell would act on.

## Two readers

`shellWords` tells which words a line has, and refuses the line where it comes upon a character that
it has no meaning for. `ShellState.scan` never refuses anything and only tells where the shell
stands, and from it `IsInert` says of a line that the shell comes upon nothing that it acts on. What
the first reader accepts is inert for the second (`isInert_of_wordsFrom`), so a line that has words
at all has no syntax beside them. Whether a first word with an equals sign in it is an assignment is
decided once the words are known, and is no part of reading them.
-/

namespace BarBridge.Text

namespace ShellState

/-- Whether a shell in the given state comes upon no character that it acts on: none is special
where no quote is open and no backslash pending. A double quote is special too, so none is ever
opened. -/
def IsInert : ShellState → List Char → Prop
  | _, [] => True
  | s, c :: cs => (s.isNormal = true → isShellSpecial c = false) ∧ IsInert (s.next c) cs

theorem isInert_iff {s : ShellState} {line : List Char} :
    IsInert s line ↔ ∀ before c after, line = before ++ c :: after →
      (s.scan before).isNormal = true → isShellSpecial c = false := by
  induction line generalizing s with
  | nil =>
    refine iff_of_true trivial fun before c after h ↦ ?_
    simp at h
  | cons d line ih =>
    rw [IsInert, ih]
    constructor
    · rintro ⟨hd, hrest⟩ before c after h
      rcases before with _ | ⟨d', before⟩
      · obtain ⟨rfl, -⟩ := List.cons.inj h
        exact hd
      · obtain ⟨rfl, hline⟩ := List.cons.inj h
        exact hrest before c after hline
    · intro h
      refine ⟨h [] d line rfl, fun before c after hline ↦ ?_⟩
      exact h (d :: before) c after (congrArg (d :: ·) hline)

theorem next_normal {c : Char} (h : isShellSpecial c = false) (inWord : Bool) :
    next (normal inWord) c =
      if c = '\'' then singleQuoted else if c = '\\' then escaped inWord
      else normal !endsWord c := by
  have hquote : c ≠ '"' := by
    rintro rfl
    exact absurd h (by decide)
  have hhash : ¬(c = '#' ∧ inWord = false) := by
    rintro ⟨rfl, -⟩
    exact absurd h (by decide)
  rw [next, if_neg hquote, if_neg hhash]

end ShellState

/-! ## What is read is inert

Every place of the first reader belongs to a state of the second (`WordPlace.Matches`). A character
that the first takes leads to a place and a state that belong together again, and where no quote is
open it is none that the shell acts on. -/

open ShellState

/-- Whether both readers stand at the same place. -/
def WordPlace.Matches : WordPlace → ShellState → Prop
  | .between, s | .bare _, s => s.isNormal = true
  | .quoted _, s => s = singleQuoted
  | .escaped _, s => ∃ inWord, s = ShellState.escaped inWord

theorem isWordGap_iff {c : Char} : isWordGap c = true ↔ c = ' ' ∨ c = '\t' := by
  rw [isWordGap, Bool.or_eq_true, beq_iff_eq, beq_iff_eq]

/-- Outside of quotes the words go on in one way, whether one has begun or not. A gap is the only
difference, since it ends a word that has begun. -/
theorem exists_matches_outside {c : Char} {cs read read' : List Char} (inWord : Bool)
    {gap : Option (List (List Char))} {words : List (List Char)}
    (hgap : gap = some words → ∃ words', wordsFrom .between cs = some words')
    (h : (if isWordGap c then gap
      else if c = '\'' then wordsFrom (.quoted read) cs
      else if c = '\\' then wordsFrom (.escaped read) cs
      else if isShellSpecial c then none
      else wordsFrom (.bare read') cs) = some words) :
    isShellSpecial c = false ∧ ∃ place words', place.Matches (next (normal inWord) c) ∧
      wordsFrom place cs = some words' := by
  split at h
  · next hc =>
    obtain ⟨words', hwords'⟩ := hgap h
    refine ⟨?_, .between, words', ?_, hwords'⟩ <;> rcases isWordGap_iff.mp hc with rfl | rfl
    · decide
    · decide
    · rfl
    · rfl
  split at h
  · next hc =>
    subst hc
    exact ⟨by decide, .quoted read, words, rfl, h⟩
  split at h
  · next hc =>
    subst hc
    exact ⟨by decide, .escaped read, words, ⟨inWord, rfl⟩, h⟩
  split at h
  · contradiction
  · next hquote hslash hspecial =>
    have hc : isShellSpecial c = false := Bool.eq_false_iff.mpr hspecial
    refine ⟨hc, .bare read', words, ?_, h⟩
    rw [next_normal hc, if_neg hquote, if_neg hslash]
    rfl

theorem exists_matches_of_wordsFrom {place : WordPlace} {s : ShellState} {c : Char}
    {cs : List Char} {words : List (List Char)} (hplace : place.Matches s)
    (h : wordsFrom place (c :: cs) = some words) :
    (s.isNormal = true → isShellSpecial c = false) ∧
      ∃ place' words', place'.Matches (s.next c) ∧ wordsFrom place' cs = some words' := by
  cases place with
  | between =>
    obtain ⟨inWord, rfl⟩ := isNormal_iff.mp hplace
    obtain ⟨hc, hnext⟩ := exists_matches_outside inWord (fun hgap ↦ ⟨words, hgap⟩) h
    exact ⟨fun _ ↦ hc, hnext⟩
  | bare read =>
    obtain ⟨inWord, rfl⟩ := isNormal_iff.mp hplace
    have hgap : (wordsFrom .between cs).map (read.reverse :: ·) = some words →
        ∃ words', wordsFrom .between cs = some words' := fun hmap ↦ by
      obtain ⟨words', hwords', -⟩ := Option.map_eq_some_iff.mp hmap
      exact ⟨words', hwords'⟩
    obtain ⟨hc, hnext⟩ := exists_matches_outside inWord hgap h
    exact ⟨fun _ ↦ hc, hnext⟩
  | quoted read =>
    obtain rfl : s = singleQuoted := hplace
    refine ⟨fun hnormal ↦ absurd hnormal (by decide), ?_⟩
    rw [wordsFrom] at h
    split at h
    · next hc => exact ⟨.bare read, words, by rw [next, if_pos hc]; rfl, h⟩
    · next hc => exact ⟨.quoted (c :: read), words, by rw [next, if_neg hc]; rfl, h⟩
  | escaped read =>
    obtain ⟨inWord, rfl⟩ := hplace
    refine ⟨fun hnormal ↦ absurd hnormal (by simp [isNormal]), .bare (c :: read), words, ?_, h⟩
    rw [next]
    split <;> rfl

/-- **A line that is read is inert.** -/
theorem isInert_of_wordsFrom {place : WordPlace} {s : ShellState} {line : List Char}
    {words : List (List Char)} (hplace : place.Matches s)
    (h : wordsFrom place line = some words) : IsInert s line := by
  induction line generalizing place s words with
  | nil => trivial
  | cons c line ih =>
    obtain ⟨hinert, place', words', hplace', hwords'⟩ := exists_matches_of_wordsFrom hplace h
    exact ⟨hinert, ih hplace' hwords'⟩

/-! ## Lines -/

theorem wordsFrom_shellQuote_space (value : String) (rest : List Char) :
    wordsFrom .between ((shellQuote value).toList ++ ' ' :: rest) =
      (wordsFrom .between rest).map (value.toList :: ·) := by
  rw [wordsFrom_shellQuote, wordsFrom, if_pos (by decide), List.reverse_reverse]

/-- The induction is on the values. The last one has no space behind it and is ended by the line. -/
theorem wordsFrom_intercalate (values : List String) :
    wordsFrom .between (" ".intercalate (values.map shellQuote)).toList =
      some (values.map String.toList) := by
  induction values with
  | nil => rfl
  | cons value values ih =>
    rcases values with _ | ⟨value', values⟩
    · have hlast := wordsFrom_shellQuote value []
      rw [List.append_nil, wordsFrom, List.reverse_reverse] at hlast
      exact hlast
    · have hline : (" ".intercalate ((value :: value' :: values).map shellQuote)).toList =
          (shellQuote value).toList ++
            ' ' :: (" ".intercalate ((value' :: values).map shellQuote)).toList := by
        simp
      rw [hline, wordsFrom_shellQuote_space, ih]
      rfl

/-- **Quoted values are the words of their line**, and the shell comes upon nothing else in it. -/
theorem shellWords_quoted (values : List String) :
    shellWords (" ".intercalate (values.map shellQuote)).toList =
        some (values.map String.toList) ∧
      ∀ before c after, (" ".intercalate (values.map shellQuote)).toList = before ++ c :: after →
        (behind before).isNormal = true → isShellSpecial c = false := by
  have hwords := wordsFrom_intercalate values
  have hstart : WordPlace.between.Matches (normal false) := rfl
  exact ⟨hwords, isInert_iff.mp (isInert_of_wordsFrom hstart hwords)⟩

end BarBridge.Text
