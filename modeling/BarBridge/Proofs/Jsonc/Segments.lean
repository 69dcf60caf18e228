import BarBridge.Jsonc.Reader
import BarBridge.Proofs.Jsonc.DanglingCommas

/-!
# The segments of a configuration text

A configuration text is cut into string literals, line comments, block comments and single other
characters. The cut is made once, from left to right, on any text: a literal or a comment that is
not closed runs to the end. The line feed behind a line comment is a character of its own.

Repair is a statement about this cut. The two scanners of `sanitize` each keep a state of their own,
and the second one finds the literals anew in what the first one has written; nevertheless the cut
of the repaired text is the cut of the text itself, without its comments and without some commas:
`segments_sanitize`. So literals come through unchanged and in order, and nothing else is lost.

## Why nothing is joined

Deleting characters could bring a slash before another slash or a star, and so begin a comment that
nobody wrote. It does not. A comment begins with a slash, so a slash that is a character of its own
never stands right before one. A deleted comma stands before a blank or a bracket, so what comes to
stand behind a slash in its place is no slash and no star.
-/

namespace BarBridge.Jsonc

/-- A part of a configuration text. -/
inductive Segment where
  /-- A string literal with its quotes; the second one is missing where the text ends first. -/
  | literal (chars : List Char)
  /-- A line comment, without the line feed behind it. -/
  | line (chars : List Char)
  | block (chars : List Char)
  | char (c : Char)
  deriving DecidableEq, Repr

namespace Segment

def chars : Segment → List Char
  | literal cs | line cs | block cs => cs
  | char c => [c]

def isComment : Segment → Bool
  | line _ | block _ => true
  | literal _ | char _ => false

def literal? : Segment → Option (List Char)
  | literal cs => some cs
  | _ => none

theorem literal?_of_isComment {s : Segment} (h : s.isComment = true) : s.literal? = none := by
  cases s with
  | literal cs => exact absurd h (by simp [isComment])
  | line cs | block cs | char c => rfl

end Segment

/-- What the reader of segments is in the middle of; characters read are kept newest first. -/
inductive Within where
  | code
  | literal (read : List Char)
  /-- In a literal, behind a backslash. -/
  | escape (read : List Char)
  | line (read : List Char)
  | block (read : List Char)
  deriving Repr

/-- The segments of the rest of a text. -/
def segmentsFrom : Within → List Char → List Segment
  | .code, [] => []
  | .literal read, [] | .escape read, [] => [.literal read.reverse]
  | .line read, [] => [.line read.reverse]
  | .block read, [] => [.block read.reverse]
  | .code, '/' :: '/' :: cs => segmentsFrom (.line ['/', '/']) cs
  | .code, '/' :: '*' :: cs => segmentsFrom (.block ['*', '/']) cs
  | .code, c :: cs =>
    if c = '"' then segmentsFrom (.literal [c]) cs else .char c :: segmentsFrom .code cs
  | .literal read, c :: cs =>
    if c = '\\' then segmentsFrom (.escape (c :: read)) cs
    else if c = '"' then .literal (c :: read).reverse :: segmentsFrom .code cs
    else segmentsFrom (.literal (c :: read)) cs
  | .escape read, c :: cs => segmentsFrom (.literal (c :: read)) cs
  | .line read, c :: cs =>
    if c = '\n' then .line read.reverse :: .char c :: segmentsFrom .code cs
    else segmentsFrom (.line (c :: read)) cs
  | .block read, '*' :: '/' :: cs =>
    .block ('/' :: '*' :: read).reverse :: segmentsFrom .code cs
  | .block read, c :: cs => segmentsFrom (.block (c :: read)) cs

/-- The segments of a text. -/
def segments (text : List Char) : List Segment :=
  segmentsFrom .code text

/-- The string literals of a text, quotes included. -/
def literals (text : List Char) : List (List Char) :=
  (segments text).filterMap Segment.literal?

namespace Within

/-- What has been read of the present segment. -/
def read : Within → List Char
  | code => []
  | literal r | escape r | line r | block r => r

/-- Where the comment scanner stands. -/
def region : Within → Region
  | code => .code
  | literal _ => .string
  | escape _ => .escape
  | line _ => .line
  | block _ => .block

/-- Where the comma scanner stands; it knows of no comments. -/
def place : Within → Literal
  | code | line _ | block _ => .outside
  | literal _ => .inside
  | escape _ => .escape

/-- The same place in a text whose comments are gone. -/
def uncommented : Within → Within
  | code | line _ | block _ => code
  | literal r => literal r
  | escape r => escape r

end Within

/-! ## The cut loses nothing -/

theorem chars_segmentsFrom (w : Within) (text : List Char) :
    (segmentsFrom w text).flatMap Segment.chars = w.read.reverse ++ text := by
  fun_induction segmentsFrom w text <;> simp_all [Segment.chars, Within.read]

theorem chars_segments (text : List Char) : (segments text).flatMap Segment.chars = text :=
  chars_segmentsFrom .code text

/-! ## A character of its own

The comment scanner and the reader of segments both look one character ahead, and `opensComment` is
what they look for. Where it does not hold, each of them goes on by one character. -/

/-- Whether a character begins a comment before the given text. -/
def opensComment (c : Char) (cs : List Char) : Prop :=
  c = '/' ∧ (cs.head? = some '/' ∨ cs.head? = some '*')

private theorem not_opensComment {c : Char} {cs : List Char}
    (hline : ∀ cs', c = '/' → cs = '/' :: cs' → False)
    (hblock : ∀ cs', c = '/' → cs = '*' :: cs' → False) : ¬opensComment c cs := by
  rintro ⟨rfl, hnext⟩
  cases cs with
  | nil => simp at hnext
  | cons d cs =>
    rcases hnext with hnext | hnext
    · exact hline cs rfl (by simpa using hnext)
    · exact hblock cs rfl (by simpa using hnext)

theorem segmentsFrom_code_cons {c : Char} {cs : List Char} (h : ¬opensComment c cs) :
    segmentsFrom .code (c :: cs) =
      if c = '"' then segmentsFrom (.literal [c]) cs else .char c :: segmentsFrom .code cs := by
  rw [segmentsFrom]
  · rintro cs' rfl rfl
    exact h ⟨rfl, .inl rfl⟩
  · rintro cs' rfl rfl
    exact h ⟨rfl, .inr rfl⟩

theorem dropComments_code_cons {c : Char} {cs : List Char} (h : ¬opensComment c cs) :
    dropComments .code (c :: cs) = c :: dropComments (if c = '"' then .string else .code) cs := by
  rw [dropComments]
  · rintro cs' rfl rfl
    exact h ⟨rfl, .inl rfl⟩
  · rintro cs' rfl rfl
    exact h ⟨rfl, .inr rfl⟩

/-! ## The first pass -/

theorem head?_dropComments_code {cs : List Char} (h : cs.head? ≠ some '/') :
    (dropComments .code cs).head? = cs.head? := by
  cases cs with
  | nil => rfl
  | cons c cs =>
    have hc : ¬opensComment c cs := by
      rintro ⟨rfl, -⟩
      exact h rfl
    rw [dropComments_code_cons hc]
    rfl

theorem not_opensComment_dropComments {c : Char} {cs : List Char} (h : ¬opensComment c cs) :
    ¬opensComment c (dropComments .code cs) := by
  rintro ⟨rfl, hnext⟩
  have hslash : cs.head? ≠ some '/' := fun h' ↦ h ⟨rfl, .inl h'⟩
  rw [head?_dropComments_code hslash] at hnext
  exact h ⟨rfl, hnext⟩

/-- **Comments leave the cut as it was.** The scanner and the reader of segments stand in the same
place all along; where a comment is under way, the reader of the result stands in code. -/
theorem segmentsFrom_dropComments (w : Within) (text : List Char) :
    segmentsFrom w.uncommented (dropComments w.region text) =
      (segmentsFrom w text).filter fun s ↦ !s.isComment := by
  fun_induction segmentsFrom w text with
  | case1 | case2 read | case3 read | case4 read | case5 read =>
    simp [Within.uncommented, dropComments, segmentsFrom, Segment.isComment]
  | case6 cs ih | case7 cs ih => exact ih
  | case8 cs hline hblock ih =>
    rw [Within.region, dropComments_code_cons (not_opensComment hline hblock)]
    exact ih
  | case9 c cs hline hblock hquote ih =>
    -- This character begins no comment, and cannot begin one with what comes to stand behind it.
    have hopens : ¬opensComment c cs := not_opensComment hline hblock
    rw [Within.region, Within.uncommented, dropComments_code_cons hopens, if_neg hquote,
      segmentsFrom_code_cons (not_opensComment_dropComments hopens), if_neg hquote]
    exact congrArg (Segment.char c :: ·) ih
  | case10 read cs ih => exact ih
  | case11 read cs _ ih => exact congrArg (Segment.literal _ :: ·) ih
  | case12 read c cs hslash hquote ih =>
    simpa [Within.uncommented, Within.region, dropComments, segmentsFrom, hslash, hquote] using ih
  | case13 read c cs ih =>
    rw [Within.region, Within.uncommented, dropComments, segmentsFrom]
    exact ih
  | case14 read cs ih =>
    -- The line feed behind a comment is kept, as a character of its own.
    have hfeed : ¬opensComment '\n' (dropComments .code cs) := fun h ↦ absurd h.1 (by decide)
    rw [Within.region, Within.uncommented, dropComments, if_pos rfl, segmentsFrom_code_cons hfeed]
    exact congrArg (Segment.char '\n' :: ·) ih
  | case15 read c cs hfeed ih =>
    rw [Within.region, dropComments, if_neg hfeed]
    exact ih
  | case16 read cs ih => exact ih
  | case17 read c cs hstar ih =>
    rw [Within.region, dropComments]
    · exact ih
    · exact hstar

theorem segments_stripComments (text : List Char) :
    segments (stripComments text) = (segments text).filter fun s ↦ !s.isComment :=
  segmentsFrom_dropComments .code text

/-! ## The second pass -/

/-- Segments without the commas that have a bracket ahead. -/
def dropCommas : List Segment → List Segment
  | [] => []
  | s :: ss =>
    if s = .char ',' ∧ bracketAhead (ss.flatMap Segment.chars) = true then dropCommas ss
    else s :: dropCommas ss

theorem dropCommas_cons_of_ne {s : Segment} (h : s ≠ .char ',') (ss : List Segment) :
    dropCommas (s :: ss) = s :: dropCommas ss := by
  rw [dropCommas, if_neg fun h' ↦ h h'.1]

theorem uncommented_eq_of_free {w : Within} {text : List Char}
    (h : ∀ s ∈ segmentsFrom w text, s.isComment = false) : w.uncommented = w := by
  fun_induction segmentsFrom w text with
  | case15 read c cs hfeed ih | case17 read c cs hstar ih =>
    exact absurd (ih h) (by simp [Within.uncommented])
  | _ => simp_all [Within.uncommented, Segment.isComment]

theorem head?_of_bracketAhead {cs : List Char} (h : bracketAhead cs = true) :
    ∃ d cs', cs = d :: cs' ∧ (Text.isBlank d = true ∨ closesContainer d = true) := by
  cases cs with
  | nil => exact absurd h (by decide)
  | cons d cs =>
    refine ⟨d, cs, rfl, ?_⟩
    cases hblank : Text.isBlank d with
    | true => exact .inl rfl
    | false =>
      rw [bracketAhead_cons hblank] at h
      exact .inr h

theorem head?_dropAhead {cs : List Char} {d : Char} (h : (dropAhead .outside cs).head? = some d) :
    cs.head? = some d ∨ Text.isBlank d = true ∨ closesContainer d = true := by
  cases cs with
  | nil => simp [dropAhead] at h
  | cons c cs =>
    by_cases hcomma : c = ',' ∧ bracketAhead cs = true
    · -- What a deleted comma stood before is no comma, so it is kept.
      obtain ⟨d', cs', rfl, hd'⟩ := head?_of_bracketAhead hcomma.2
      have hne : ¬(d' = ',' ∧ bracketAhead cs' = true) := by
        rintro ⟨rfl, -⟩
        exact absurd hd' (by decide)
      rw [dropAhead, if_pos hcomma, dropAhead, if_neg hne] at h
      obtain rfl : d' = d := by simpa using h
      exact .inr hd'
    · rw [dropAhead, if_neg hcomma] at h
      exact .inl h

theorem not_opensComment_dropAhead {c : Char} {cs : List Char} (h : ¬opensComment c cs) :
    ¬opensComment c (dropAhead .outside cs) := by
  have hkept : ∀ d : Char, ¬(Text.isBlank d = true ∨ closesContainer d = true) →
      (dropAhead .outside cs).head? = some d → cs.head? = some d := by
    intro d hd hhead
    rcases head?_dropAhead hhead with h' | h'
    · exact h'
    · exact absurd h' hd
  rintro ⟨rfl, hnext⟩
  refine h ⟨rfl, hnext.imp (hkept '/' (by decide)) (hkept '*' (by decide))⟩

/-- **Dangling commas leave the cut as it was.** The text is free of comments, so the scanner and
the reader of segments stand in the same place all along. -/
theorem segmentsFrom_dropAhead (w : Within) (text : List Char)
    (h : ∀ s ∈ segmentsFrom w text, s.isComment = false) :
    segmentsFrom w (dropAhead w.place text) = dropCommas (segmentsFrom w text) := by
  fun_induction segmentsFrom w text with
  | case1 | case2 read | case3 read => rfl
  | case8 cs hline hblock ih =>
    have hquote : ¬('"' = ',' ∧ bracketAhead cs = true) := fun h' ↦ absurd h'.1 (by decide)
    rw [Within.place, dropAhead, if_neg hquote, if_pos rfl, segmentsFrom_code_cons, if_pos rfl]
    · exact ih h
    · exact fun h' ↦ absurd h'.1 (by decide)
  | case9 c cs hline hblock hquote ih =>
    have hopens : ¬opensComment c cs := not_opensComment hline hblock
    have ih' := ih fun s hs ↦ h s (List.mem_cons_of_mem _ hs)
    rw [Within.place] at ih' ⊢
    -- The cut loses nothing, so a comma has the same ahead in the text and among the segments.
    by_cases hcomma : c = ',' ∧ bracketAhead cs = true
    · have hdropped : Segment.char c = .char ',' ∧
          bracketAhead ((segmentsFrom .code cs).flatMap Segment.chars) = true :=
        ⟨congrArg _ hcomma.1, by rw [chars_segmentsFrom]; exact hcomma.2⟩
      rw [dropAhead, if_pos hcomma, dropCommas, if_pos hdropped]
      exact ih'
    · have hkept : ¬(Segment.char c = .char ',' ∧
          bracketAhead ((segmentsFrom .code cs).flatMap Segment.chars) = true) := by
        rintro ⟨hc, hahead⟩
        rw [chars_segmentsFrom] at hahead
        exact hcomma ⟨Segment.char.inj hc, hahead⟩
      rw [dropAhead, if_neg hcomma, if_neg hquote, dropCommas, if_neg hkept,
        segmentsFrom_code_cons (not_opensComment_dropAhead hopens), if_neg hquote, ih']
  | case10 read cs ih => exact ih h
  | case11 read cs _ ih =>
    have ih' := ih fun s hs ↦ h s (List.mem_cons_of_mem _ hs)
    rw [dropCommas_cons_of_ne (by simp), ← ih']
    rfl
  | case12 read c cs hslash hquote ih =>
    rw [Within.place, dropAhead, if_neg hslash, if_neg hquote, segmentsFrom, if_neg hslash,
      if_neg hquote]
    exact ih h
  | case13 read c cs ih =>
    rw [Within.place, dropAhead, segmentsFrom]
    exact ih h
  -- In every other case a comment is under way.
  | case4 read | case5 read | case14 read cs ih | case16 read cs ih =>
    exact absurd (h _ List.mem_cons_self) (by simp [Segment.isComment])
  | case6 cs ih | case7 cs ih | case15 read c cs hfeed ih | case17 read c cs hstar ih =>
    exact absurd (uncommented_eq_of_free h) (by simp [Within.uncommented])

/-! ## Both passes -/

/-- The segments that repair leaves. -/
def repaired (ss : List Segment) : List Segment :=
  dropCommas (ss.filter fun s ↦ !s.isComment)

/-- **The cut of the repaired text.** -/
theorem segments_sanitize (text : List Char) :
    segments (sanitize text) = repaired (segments text) := by
  have hfree : ∀ s ∈ segments (stripComments text), s.isComment = false := by
    intro s hs
    rw [segments_stripComments, List.mem_filter] at hs
    simpa using hs.2
  rw [sanitize, stripTrailingCommas_eq_dropAhead, repaired, ← segments_stripComments]
  exact segmentsFrom_dropAhead .code _ hfree

/-- What repair may do to the segments of a text: it deletes comments and commas, and keeps
everything else in order. -/
inductive Repairs : List Segment → List Segment → Prop where
  | nil : Repairs [] []
  | keep {s : Segment} {ss kept : List Segment} (hs : s.isComment = false) :
      Repairs ss kept → Repairs (s :: ss) (s :: kept)
  | comment {s : Segment} {ss kept : List Segment} (hs : s.isComment = true) :
      Repairs ss kept → Repairs (s :: ss) kept
  | comma {ss kept : List Segment} : Repairs ss kept → Repairs (.char ',' :: ss) kept

theorem repairs_repaired (ss : List Segment) : Repairs ss (repaired ss) := by
  induction ss with
  | nil => exact .nil
  | cons s ss ih =>
    rw [repaired, List.filter_cons]
    cases hs : s.isComment with
    | true => exact .comment hs ih
    | false =>
      rw [if_pos (by simp), dropCommas]
      split
      · next hcomma =>
        rw [hcomma.1]
        exact .comma ih
      · exact .keep hs ih

theorem Repairs.literals_eq {ss kept : List Segment} (h : Repairs ss kept) :
    kept.filterMap Segment.literal? = ss.filterMap Segment.literal? := by
  induction h with
  | nil => rfl
  | keep hs _ ih => rw [List.filterMap_cons, List.filterMap_cons, ih]
  | comment hs _ ih => rw [List.filterMap_cons, Segment.literal?_of_isComment hs, ih]
  | comma _ ih => exact ih

/-- **Repair preserves literals and loses nothing else.** On every text, well formed or not, the
repaired text has the string literals of the text, character for character and in order; and it is
what the segments of the text leave when comments and some commas of their own are deleted. -/
theorem sanitize_preserves_literals (text : List Char) :
    literals (sanitize text) = literals text ∧
      (segments text).flatMap Segment.chars = text ∧
      ∃ kept, Repairs (segments text) kept ∧ sanitize text = kept.flatMap Segment.chars := by
  have hrepairs := repairs_repaired (segments text)
  rw [← segments_sanitize] at hrepairs
  exact ⟨hrepairs.literals_eq, chars_segments text, segments (sanitize text), hrepairs,
    (chars_segments _).symm⟩

end BarBridge.Jsonc
