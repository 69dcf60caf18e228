import BarBridge.Proofs.Jsonc.FaultPositions
import BarBridge.Proofs.Jsonc.Segments

/-!
# Lines of the configuration and lines of the repaired text

A fault is reported with a line of the repaired text, and is read as a line of the configuration.
The two are the same if the line feeds of the configuration survive repair. Commas and line comments
hold none, for the line feed behind a line comment is no part of it. But a block comment is deleted
with all the line feeds in it, so behind one that spans lines the line reported is too small, by
exactly the number of line feeds deleted (`line_of_survivor`). A block comment of two lines before a
single character is enough to see it (`lines_lost_in_block`); if there is no such comment before
anything that is kept, every line reported is right (`keepsLines_iff`, `KeepsLines.reportsLines`).

## Characters and what becomes of them

The statement is about each character, so repair is described character by character: `fates` says
of every character of a configuration whether it is kept or what it is deleted with. This is read
off the segments, and the characters kept are the repaired text (`withFate_kept_fates`).
-/

namespace BarBridge.Jsonc

open Text

/-- What becomes of a character when a configuration is repaired. -/
inductive Fate where
  | kept
  /-- Deleted with a line comment. -/
  | line
  /-- Deleted with a block comment. -/
  | block
  /-- Deleted as a dangling comma. -/
  | comma
  deriving DecidableEq, Repr

/-- What becomes of the characters of a segment before the given ones. -/
def Segment.fate (later : List Segment) : Segment → Fate
  | .literal _ => .kept
  | .line _ => .line
  | .block _ => .block
  | .char c =>
    if c = ',' ∧
        bracketAhead ((later.filter fun s ↦ !s.isComment).flatMap Segment.chars) = true then
      .comma
    else .kept

/-- The characters of segments, each with what becomes of it. -/
def fatesOf : List Segment → List (Char × Fate)
  | [] => []
  | s :: ss => s.chars.map (·, s.fate ss) ++ fatesOf ss

/-- The characters of a configuration, each with what becomes of it. -/
def fates (text : List Char) : List (Char × Fate) :=
  fatesOf (segments text)

/-- The characters of which the given thing becomes. -/
def withFate (f : Fate) (marked : List (Char × Fate)) : List Char :=
  marked.filterMap fun m ↦ if m.2 = f then some m.1 else none

/-- Whether a character that is kept stands behind the given ones. -/
def IsSurvivor (text : List Char) (before : List (Char × Fate)) : Prop :=
  ∃ c after, fates text = before ++ (c, .kept) :: after

/-- Whether every character that is kept stays in its line. -/
def KeepsLines (text : List Char) : Prop :=
  ∀ before, IsSurvivor text before →
    (withFate .kept before).count '\n' = (before.map Prod.fst).count '\n'

/-- Whether a fault at a character that is kept is reported with the line of the configuration in
which that character stands. -/
def ReportsLines (text : List Char) : Prop :=
  ∀ f, parse text = .error f → ∀ before, IsSurvivor text before →
    byteCount (withFate .kept before) = f.offset →
      f.position.line = (before.map Prod.fst).count '\n' + 1

/-! ## Characters by their fate -/

theorem withFate_append (f : Fate) (a b : List (Char × Fate)) :
    withFate f (a ++ b) = withFate f a ++ withFate f b :=
  List.filterMap_append

theorem withFate_map_self (f : Fate) (cs : List Char) : withFate f (cs.map (·, f)) = cs := by
  simp [withFate, List.filterMap_map]

theorem withFate_map_of_ne {f g : Fate} (h : g ≠ f) (cs : List Char) :
    withFate f (cs.map (·, g)) = [] := by
  simp [withFate, h]

theorem exists_of_withFate_eq {f : Fate} {marked : List (Char × Fate)} {as bs : List Char}
    {c : Char} (h : withFate f marked = as ++ c :: bs) :
    ∃ before after, marked = before ++ (c, f) :: after ∧ withFate f before = as := by
  obtain ⟨first, second, rfl, hfirst, hsecond⟩ := List.filterMap_eq_append_iff.mp h
  obtain ⟨skipped, ⟨d, g⟩, after, rfl, hskipped, hd, -⟩ := List.filterMap_eq_cons_iff.mp hsecond
  obtain ⟨rfl, rfl⟩ : g = f ∧ d = c := by
    split at hd <;> simp_all
  refine ⟨first ++ skipped, after, by rw [List.append_assoc], ?_⟩
  have hnone : withFate g skipped = [] := List.filterMap_eq_nil_iff.mpr hskipped
  rw [withFate_append, hnone, List.append_nil]
  exact hfirst

/-! ## Fates describe repair -/

theorem map_fst_fatesOf (ss : List Segment) :
    (fatesOf ss).map Prod.fst = ss.flatMap Segment.chars := by
  induction ss with
  | nil => rfl
  | cons s ss ih => simp [fatesOf, ih, Function.comp_def]

theorem map_fst_fates (text : List Char) : (fates text).map Prod.fst = text := by
  rw [fates, map_fst_fatesOf, chars_segments]

theorem withFate_kept_fatesOf (ss : List Segment) :
    withFate .kept (fatesOf ss) = (repaired ss).flatMap Segment.chars := by
  induction ss with
  | nil => rfl
  | cons s ss ih =>
    rw [fatesOf, withFate_append, ih]
    cases s with
    | literal cs =>
      rw [show Segment.fate ss (.literal cs) = .kept from rfl, withFate_map_self]
      rfl
    | line cs | block cs =>
      rw [withFate_map_of_ne (by simp [Segment.fate])]
      rfl
    | char c =>
      have hrepaired : repaired (.char c :: ss) =
          dropCommas (.char c :: ss.filter fun s ↦ !s.isComment) := rfl
      rw [hrepaired, dropCommas]
      by_cases hcomma : c = ',' ∧
          bracketAhead ((ss.filter fun s ↦ !s.isComment).flatMap Segment.chars) = true
      · rw [withFate_map_of_ne (by simp [Segment.fate, hcomma]), if_pos (by simp [hcomma])]
        rfl
      · rw [show Segment.fate ss (.char c) = .kept from if_neg hcomma, withFate_map_self,
          if_neg (by simpa using hcomma)]
        rfl

/-- **What is kept is the repaired text.** -/
theorem withFate_kept_fates (text : List Char) : withFate .kept (fates text) = sanitize text := by
  rw [fates, withFate_kept_fatesOf, ← segments_sanitize, chars_segments]

/-! ## Line feeds

A line feed is no comma, and a line comment ends before it. So the line feeds before a character are
those that are kept and those of block comments, and by the number of the second the line in the
repaired text is too small. -/

theorem feed_notMem_line {w : Within} {text cs : List Char}
    (hw : ∀ read, w = .line read → '\n' ∉ read) (h : .line cs ∈ segmentsFrom w text) :
    '\n' ∉ cs := by
  fun_induction segmentsFrom w text with
  | case1 | case2 read | case3 read | case5 read => simp at h
  | case4 read =>
    obtain rfl : cs = read.reverse := by simpa using h
    rw [List.mem_reverse]
    exact hw read rfl
  | case6 cs' ih =>
    refine ih ?_ h
    rintro _ ⟨⟩
    decide
  | case15 read c cs' hfeed ih =>
    refine ih ?_ h
    rintro _ ⟨⟩
    rw [List.mem_cons, not_or]
    exact ⟨Ne.symm hfeed, hw read rfl⟩
  | case14 read cs' ih =>
    -- The line ends at this line feed; what follows is code.
    rcases List.mem_cons.mp h with h | h
    · obtain rfl : cs = read.reverse := by simpa using h
      rw [List.mem_reverse]
      exact hw read rfl
    · exact ih (by simp) (by simpa using h)
  -- In every other case no line comment is under way.
  | _ => simp_all

theorem fate_of_feed {ss : List Segment} {g : Fate} (hline : ∀ cs, .line cs ∈ ss → '\n' ∉ cs)
    (h : ('\n', g) ∈ fatesOf ss) : g = .kept ∨ g = .block := by
  induction ss with
  | nil => simp [fatesOf] at h
  | cons s ss ih =>
    rw [fatesOf, List.mem_append] at h
    rcases h with h | h
    · obtain ⟨c, hc, heq⟩ := List.mem_map.mp h
      obtain ⟨rfl, rfl⟩ := Prod.mk.inj heq
      cases s with
      | literal cs => exact .inl rfl
      | line cs => exact absurd hc (hline cs List.mem_cons_self)
      | block cs => exact .inr rfl
      | char d =>
        obtain rfl : '\n' = d := List.mem_singleton.mp hc
        exact .inl (by simp [Segment.fate])
    · exact ih (fun cs hcs ↦ hline cs (List.mem_cons_of_mem s hcs)) h

theorem count_feed_of_fates {marked : List (Char × Fate)}
    (h : ∀ g, ('\n', g) ∈ marked → g = .kept ∨ g = .block) :
    (marked.map Prod.fst).count '\n' =
      (withFate .kept marked).count '\n' + (withFate .block marked).count '\n' := by
  induction marked with
  | nil => rfl
  | cons m marked ih =>
    obtain ⟨c, g⟩ := m
    have ih' := ih fun g' hg' ↦ h g' (List.mem_cons_of_mem _ hg')
    have hsplit : ∀ f, withFate f ((c, g) :: marked) =
        withFate f [(c, g)] ++ withFate f marked := fun f ↦ withFate_append f [(c, g)] marked
    rw [List.map_cons, List.count_cons, ih', hsplit, hsplit, List.count_append, List.count_append]
    by_cases hc : c = '\n'
    · subst hc
      rcases h g List.mem_cons_self with rfl | rfl <;> simp [withFate] <;> omega
    · cases g <;> simp [withFate, hc]

theorem count_feed_of_isSurvivor {text : List Char} {before : List (Char × Fate)}
    (h : IsSurvivor text before) :
    (before.map Prod.fst).count '\n' =
      (withFate .kept before).count '\n' + (withFate .block before).count '\n' := by
  obtain ⟨c, after, hfates⟩ := h
  have hlines : ∀ cs, .line cs ∈ segments text → '\n' ∉ cs :=
    fun cs hcs ↦ feed_notMem_line (by simp) hcs
  refine count_feed_of_fates fun g hg ↦ fate_of_feed hlines ?_
  rw [← fates, hfates]
  exact List.mem_append_left _ hg

/-- **When lines are kept**: if no character that is kept stands behind a block comment with a line
feed in it. -/
theorem keepsLines_iff {text : List Char} :
    KeepsLines text ↔ ∀ before, IsSurvivor text before → '\n' ∉ withFate .block before := by
  refine forall₂_congr fun before hbefore ↦ ?_
  rw [count_feed_of_isSurvivor hbefore, ← List.count_eq_zero]
  omega

/-! ## Lines that are reported

A fault counts bytes of the repaired text. Unless it is at the end, these are the bytes of what is
kept before some character of the configuration, and this is the character that it is at. -/

section Reported

variable {text : List Char} {f : Fault} {before : List (Char × Fate)}

theorem IsSurvivor.isPrefix (h : IsSurvivor text before) :
    withFate .kept before <+: sanitize text := by
  obtain ⟨c, after, hfates⟩ := h
  rw [← withFate_kept_fates, hfates, withFate_append]
  exact List.prefix_append _ _

theorem exists_isSurvivor_of_parse (hf : parse text = .error f)
    (hlt : f.offset < byteCount (sanitize text)) :
    ∃ before, IsSurvivor text before ∧ byteCount (withFate .kept before) = f.offset := by
  obtain ⟨g, hg, rfl⟩ := exists_eq_locate_of_parse hf
  obtain ⟨skipped, left, c, right, rest, hclean, -, hoffset⟩ := (isExact_locate hg).shown hlt
  have hkept : withFate .kept (fates text) = (skipped ++ left) ++ c :: (right ++ rest) := by
    rw [withFate_kept_fates, hclean]
    simp
  obtain ⟨before, after, hfates, hbefore⟩ := exists_of_withFate_eq hkept
  exact ⟨before, ⟨c, after, hfates⟩, by rw [hbefore, hoffset]⟩

theorem line_of_parse (hf : parse text = .error f) (hbefore : IsSurvivor text before)
    (hoffset : byteCount (withFate .kept before) = f.offset) :
    f.position.line = (withFate .kept before).count '\n' + 1 := by
  obtain ⟨g, hg, rfl⟩ := exists_eq_locate_of_parse hf
  obtain ⟨reached, hreached, hbytes, hline⟩ := (isExact_locate hg).line
  have heq : reached = withFate .kept before :=
    eq_of_byteCount_eq hreached hbefore.isPrefix (by rw [hbytes, hoffset])
  rw [hline, heq]

theorem KeepsLines.reportsLines (h : KeepsLines text) : ReportsLines text := by
  intro f hf before hbefore hoffset
  rw [line_of_parse hf hbefore hoffset, h before hbefore]

end Reported

/-- **Lines of the configuration.** Every character of a configuration is kept, or deleted with a
comment or as a comma; what is kept is the repaired text. Behind a line feed that was in a block
comment, and there only, a character stands in an earlier line of the repaired text than of the
configuration, and so a fault is reported with an earlier line than that of its character. If no
such line feed stands before anything that is kept, every line is reported as it is. -/
theorem line_of_survivor (text : List Char) :
    (fates text).map Prod.fst = text ∧ withFate .kept (fates text) = sanitize text ∧
      (∀ before, IsSurvivor text before →
        (before.map Prod.fst).count '\n' =
          (withFate .kept before).count '\n' + (withFate .block before).count '\n') ∧
      (∀ f, parse text = .error f →
        (f.offset < byteCount (sanitize text) →
          ∃ before, IsSurvivor text before ∧ byteCount (withFate .kept before) = f.offset) ∧
        ∀ before, IsSurvivor text before → byteCount (withFate .kept before) = f.offset →
          f.position.line + (withFate .block before).count '\n' =
            (before.map Prod.fst).count '\n' + 1) ∧
      (KeepsLines text ↔ ∀ before, IsSurvivor text before → '\n' ∉ withFate .block before) ∧
      (KeepsLines text → ReportsLines text) := by
  refine ⟨map_fst_fates text, withFate_kept_fates text,
    fun before hbefore ↦ count_feed_of_isSurvivor hbefore, fun f hf ↦ ?_, keepsLines_iff,
    KeepsLines.reportsLines⟩
  constructor
  · exact exists_isSurvivor_of_parse hf
  · intro before hbefore hoffset
    rw [line_of_parse hf hbefore hoffset, count_feed_of_isSurvivor hbefore]
    omega

/-- A character behind a block comment of two lines: it comes to stand in the first line, and is
reported there. -/
theorem lines_lost_in_block :
    ¬KeepsLines "/*\n*/x".toList ∧ ¬ReportsLines "/*\n*/x".toList := by
  have hsurvivor : IsSurvivor "/*\n*/x".toList ("/*\n*/".toList.map (·, .block)) :=
    ⟨'x', [], by decide⟩
  constructor
  · intro h
    exact absurd (h _ hsurvivor) (by decide)
  · intro h
    have hparse : parse "/*\n*/x".toList = .error ⟨.valueExpected, ⟨1, 1⟩, 0, ['x']⟩ := by rfl
    exact absurd (h _ hparse _ hsurvivor (by decide)) (by decide)

end BarBridge.Jsonc
