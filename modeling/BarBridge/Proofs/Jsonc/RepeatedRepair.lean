import BarBridge.Proofs.Jsonc.Annotation
import BarBridge.Proofs.Jsonc.Commentless

/-!
# Repairing a text again

Repair deletes one comma for a bracket. Where two commas stand in front of a bracket, with nothing
but blanks and comments between, the first is left, and it dangles in the repaired text: `[1,,]`
becomes `[1,]`, which is refused, and when repaired again `[1]`, which is read. So repair is not
idempotent, and a text that is refused may be read after a second repair (`repair_again_changes`).

This is the only way in which a second repair makes a difference. It makes none exactly if no comma
is doubled in this way, and in a configuration that is read at all none is
(`sanitize_sanitize_eq_iff`).

## What comes next

Whether a comma goes depends on the first thing behind it that is no blank and no comment. The
proof is about how this changes in repair: an end that comes next still does, and one also comes
next where a single comma stood before it (`bracketNext_repaired`). All else follows by a walk over
the segments (`repaired_repaired_iff`), where comments and blanks are passed over one by one. That
a literal is neither passed over nor mistaken for an end is because it begins with a quote.
-/

namespace BarBridge.Jsonc

/-- Whether a segment stands between tokens: a comment, or a blank. -/
def Segment.isGap : Segment → Bool
  | line _ | block _ => true
  | char c => Text.isBlank c
  | literal _ => false

/-- Whether the first segment that is no gap is of a kind, which may depend on those behind it. -/
def ComesNext (kind : Segment → List Segment → Prop) (ss : List Segment) : Prop :=
  ∃ gap s rest, ss = gap ++ s :: rest ∧ (∀ g ∈ gap, g.isGap = true) ∧ s.isGap = false ∧ kind s rest

/-- Whether the end of an array or an object comes next. -/
def BracketNext : List Segment → Prop :=
  ComesNext fun s _ ↦ s = .char ']' ∨ s = .char '}'

/-- Whether a comma comes next, and behind it the end of an array or an object. -/
def CommaNext : List Segment → Prop :=
  ComesNext fun s rest ↦ s = .char ',' ∧ BracketNext rest

/-- Whether there are two commas among segments, with nothing but blanks and comments between them,
and with nothing but blanks and comments before the end of an array or an object. -/
def Doubled (ss : List Segment) : Prop :=
  ∃ before rest, ss = before ++ .char ',' :: rest ∧ CommaNext rest

/-- Whether a text doubles a comma that dangles. -/
def DoublesComma (text : List Char) : Prop :=
  Doubled (segments text)

/-! ## One segment after another -/

section ComesNext

variable {kind kind' : Segment → List Segment → Prop} {s : Segment} {ss : List Segment}

theorem not_comesNext_nil : ¬ComesNext kind [] := by
  rintro ⟨gap, s, rest, h, -⟩
  simp at h

theorem comesNext_cons_of_isGap (hs : s.isGap = true) :
    ComesNext kind (s :: ss) ↔ ComesNext kind ss := by
  constructor
  · rintro ⟨gap, t, rest, h, hgap, ht, hkind⟩
    rcases gap with _ | ⟨g, gap⟩
    · obtain ⟨rfl, -⟩ := List.cons.inj h
      rw [hs] at ht
      exact absurd ht (by decide)
    · obtain ⟨-, rfl⟩ := List.cons.inj h
      exact ⟨gap, t, rest, rfl, fun g hg ↦ hgap g (List.mem_cons_of_mem _ hg), ht, hkind⟩
  · rintro ⟨gap, t, rest, rfl, hgap, ht, hkind⟩
    exact ⟨s :: gap, t, rest, rfl, List.forall_mem_cons.mpr ⟨hs, hgap⟩, ht, hkind⟩

theorem comesNext_cons (hs : s.isGap = false) : ComesNext kind (s :: ss) ↔ kind s ss := by
  constructor
  · rintro ⟨gap, t, rest, h, hgap, -, hkind⟩
    rcases gap with _ | ⟨g, gap⟩
    · obtain ⟨rfl, rfl⟩ := List.cons.inj h
      exact hkind
    · obtain ⟨rfl, -⟩ := List.cons.inj h
      rw [hgap s List.mem_cons_self] at hs
      exact absurd hs (by decide)
  · exact fun hkind ↦ ⟨[], s, ss, rfl, by simp, hs, hkind⟩

theorem ComesNext.both (h : ComesNext kind ss) (h' : ComesNext kind' ss) :
    ∃ s rest, kind s rest ∧ kind' s rest := by
  induction ss with
  | nil => exact absurd h not_comesNext_nil
  | cons s ss ih =>
    cases hs : s.isGap with
    | true =>
      rw [comesNext_cons_of_isGap hs] at h h'
      exact ih h h'
    | false =>
      rw [comesNext_cons hs] at h h'
      exact ⟨s, ss, h, h'⟩

end ComesNext

theorem BracketNext.not_commaNext {ss : List Segment} (h : BracketNext ss) : ¬CommaNext ss := by
  intro h'
  obtain ⟨s, rest, hbracket, rfl, -⟩ := h.both h'
  simp at hbracket

theorem not_doubled_nil : ¬Doubled [] := by
  rintro ⟨before, rest, h, -⟩
  simp at h

theorem doubled_cons {s : Segment} {ss : List Segment} :
    Doubled (s :: ss) ↔ s = .char ',' ∧ CommaNext ss ∨ Doubled ss := by
  constructor
  · rintro ⟨before, rest, h, hrest⟩
    rcases before with _ | ⟨t, before⟩
    · obtain ⟨rfl, rfl⟩ := List.cons.inj h
      exact .inl ⟨rfl, hrest⟩
    · obtain ⟨-, rfl⟩ := List.cons.inj h
      exact .inr ⟨before, rest, rfl, hrest⟩
  · rintro (⟨rfl, hrest⟩ | ⟨before, rest, rfl, hrest⟩)
    · exact ⟨[], ss, rfl, hrest⟩
    · exact ⟨s :: before, rest, rfl, hrest⟩

/-! ## Literals begin with a quote

A literal is a list of characters, and that it begins with a quote is not said by its type. It holds
of the literals of a text and stays true when segments are left out. -/

/-- Whether the literals among segments begin with a quote. -/
def Quoted (ss : List Segment) : Prop :=
  ∀ cs, .literal cs ∈ ss → cs.head? = some '"'

theorem quoted_nil : Quoted [] :=
  fun _ h ↦ absurd h List.not_mem_nil

theorem Quoted.of_cons {s : Segment} {ss : List Segment} (h : Quoted (s :: ss)) : Quoted ss :=
  fun cs hcs ↦ h cs (List.mem_cons_of_mem s hcs)

theorem Quoted.cons_literal {read : List Char} {ss : List Segment}
    (hread : read.getLast? = some '"') (h : Quoted ss) : Quoted (.literal read.reverse :: ss) := by
  intro cs hcs
  rcases List.mem_cons.mp hcs with heq | hmem
  · rw [Segment.literal.inj heq, List.head?_reverse, hread]
  · exact h cs hmem

theorem Quoted.cons_other {s : Segment} {ss : List Segment} (hs : s.literal? = none)
    (h : Quoted ss) : Quoted (s :: ss) := by
  intro cs hcs
  rcases List.mem_cons.mp hcs with rfl | hmem
  · exact absurd hs (by simp [Segment.literal?])
  · exact h cs hmem

theorem quoted_segmentsFrom {w : Within} {text : List Char}
    (hw : w.place ≠ .outside → w.read.getLast? = some '"') : Quoted (segmentsFrom w text) := by
  have hread : ∀ (c : Char) {read : List Char}, read.getLast? = some '"' →
      (c :: read).getLast? = some '"' := by
    intro c read h
    rw [List.getLast?_cons, h]
    rfl
  fun_induction segmentsFrom w text with
  | case1 => exact quoted_nil
  | case2 read | case3 read => exact quoted_nil.cons_literal (hw (by simp [Within.place]))
  | case4 read | case5 read => exact quoted_nil.cons_other rfl
  | case6 cs ih | case7 cs ih | case15 read c cs hfeed ih | case17 read c cs hstar ih =>
    exact ih fun h ↦ absurd rfl h
  | case8 cs hline hblock ih => exact ih fun _ ↦ rfl
  | case9 c cs hline hblock hquote ih => exact (ih fun h ↦ absurd rfl h).cons_other rfl
  | case10 read cs ih | case12 read c cs hslash hquote ih | case13 read c cs ih =>
    exact ih fun _ ↦ hread _ (hw (by simp [Within.place]))
  | case11 read cs _ ih =>
    exact (ih fun h ↦ absurd rfl h).cons_literal (hread _ (hw (by simp [Within.place])))
  | case14 read cs ih => exact ((ih fun h ↦ absurd rfl h).cons_other rfl).cons_other rfl
  | case16 read cs ih => exact (ih fun h ↦ absurd rfl h).cons_other rfl

theorem quoted_segments (text : List Char) : Quoted (segments text) :=
  quoted_segmentsFrom fun h ↦ absurd rfl h

/-! ## What repair does to what comes next -/

theorem bracketNext_iff {ss : List Segment} (h : Quoted ss) :
    BracketNext ss ↔
      bracketAhead ((ss.filter fun s ↦ !s.isComment).flatMap Segment.chars) = true := by
  induction ss with
  | nil => exact iff_of_false not_comesNext_nil (by decide)
  | cons s ss ih =>
    have ih := ih h.of_cons
    cases s with
    | line cs | block cs => exact (comesNext_cons_of_isGap rfl).trans ih
    | literal cs =>
      obtain ⟨body, rfl⟩ : ∃ body, cs = '"' :: body :=
        List.head?_eq_some_iff.mp (h cs List.mem_cons_self)
      refine iff_of_false ?_ ?_
      · rw [BracketNext, comesNext_cons rfl]
        simp
      · rw [List.filter_cons_of_pos rfl, List.flatMap_cons, Segment.chars, List.cons_append,
          bracketAhead_cons (by decide)]
        decide
    | char c =>
      rw [List.filter_cons_of_pos rfl, List.flatMap_cons, Segment.chars, List.singleton_append]
      cases hblank : Text.isBlank c with
      | true =>
        have hgap : (Segment.char c).isGap = true := hblank
        rw [bracketAhead_cons_blank hblank]
        exact (comesNext_cons_of_isGap hgap).trans ih
      | false =>
        have hgap : (Segment.char c).isGap = false := hblank
        rw [bracketAhead_cons hblank, BracketNext, comesNext_cons hgap]
        simp [closesContainer]

section Repaired

variable {s : Segment} {ss : List Segment}

theorem repaired_sublist (ss : List Segment) : (repaired ss).Sublist ss :=
  (dropCommas_sublist _).trans List.filter_sublist

theorem Quoted.repaired (h : Quoted ss) : Quoted (repaired ss) :=
  fun cs hcs ↦ h cs ((repaired_sublist ss).subset hcs)

theorem repaired_comment (hs : s.isComment = true) : repaired (s :: ss) = repaired ss := by
  rw [BarBridge.Jsonc.repaired, List.filter_cons_of_neg (by simp [hs])]
  rfl

theorem repaired_comma (hss : Quoted ss) (h : BracketNext ss) :
    repaired (.char ',' :: ss) = repaired ss := by
  rw [BarBridge.Jsonc.repaired, List.filter_cons_of_pos rfl, dropCommas,
    if_pos ⟨rfl, (bracketNext_iff hss).mp h⟩]
  rfl

theorem repaired_cons (hss : Quoted ss) (hs : s.isComment = false)
    (h : ¬(s = .char ',' ∧ BracketNext ss)) : repaired (s :: ss) = s :: repaired ss := by
  rw [bracketNext_iff hss] at h
  rw [BarBridge.Jsonc.repaired, List.filter_cons_of_pos (by simp [hs]), dropCommas, if_neg h]
  rfl

/-- An end that comes next still does, and so does one that a single comma stood before. -/
theorem bracketNext_repaired (hss : Quoted ss) :
    BracketNext (repaired ss) ↔ BracketNext ss ∨ CommaNext ss := by
  induction ss with
  | nil => exact iff_of_false not_comesNext_nil (not_or.mpr ⟨not_comesNext_nil, not_comesNext_nil⟩)
  | cons s ss ih =>
    have ih := ih hss.of_cons
    by_cases hcomma : s = .char ',' ∧ BracketNext ss
    · obtain ⟨rfl, hnext⟩ := hcomma
      have hcommaNext : CommaNext (.char ',' :: ss) := (comesNext_cons rfl).mpr ⟨rfl, hnext⟩
      rw [repaired_comma hss.of_cons hnext]
      exact iff_of_true (ih.mpr (.inl hnext)) (.inr hcommaNext)
    cases hgap : s.isGap with
    | true =>
      -- Blanks are kept and comments are not; both are passed over.
      have hkept : BracketNext (repaired (s :: ss)) ↔ BracketNext (repaired ss) := by
        cases hs : s.isComment with
        | true => rw [repaired_comment hs]
        | false =>
          rw [repaired_cons hss.of_cons hs hcomma]
          exact comesNext_cons_of_isGap hgap
      rw [hkept, ih, BracketNext, CommaNext, comesNext_cons_of_isGap hgap,
        comesNext_cons_of_isGap hgap]
    | false =>
      have hs : s.isComment = false := by
        cases s with
        | line cs | block cs => exact absurd hgap (by simp [Segment.isGap])
        | literal cs | char c => rfl
      have hnext : ¬CommaNext (s :: ss) := by
        rw [CommaNext, comesNext_cons hgap]
        exact hcomma
      rw [repaired_cons hss.of_cons hs hcomma, or_iff_left hnext, BracketNext, comesNext_cons hgap,
        comesNext_cons hgap]

/-- **A second repair makes a difference where a comma is doubled.** -/
theorem repaired_repaired_iff (hss : Quoted ss) :
    repaired (repaired ss) = repaired ss ↔ ¬Doubled ss := by
  induction ss with
  | nil => exact iff_of_true rfl not_doubled_nil
  | cons s ss ih =>
    have hquoted := hss.of_cons
    have ih := ih hquoted
    rw [doubled_cons]
    cases hs : s.isComment with
    | true =>
      have hne : s ≠ .char ',' := by
        rintro rfl
        exact absurd hs (by decide)
      rw [repaired_comment hs, ih, or_iff_right fun h ↦ hne h.1]
    | false =>
      by_cases hcomma : s = .char ',' ∧ BracketNext ss
      · obtain ⟨rfl, hnext⟩ := hcomma
        rw [repaired_comma hquoted hnext, ih, or_iff_right fun h ↦ hnext.not_commaNext h.2]
      · rw [repaired_cons hquoted hs hcomma]
        by_cases hdouble : s = .char ',' ∧ CommaNext ss
        · -- The comma that was kept goes now, so there is less than before.
          obtain ⟨rfl, hnext⟩ := hdouble
          have hbracket : BracketNext (repaired ss) :=
            (bracketNext_repaired hquoted).mpr (.inr hnext)
          rw [repaired_comma hquoted.repaired hbracket]
          refine iff_of_false (fun h ↦ ?_) (not_not_intro (.inl ⟨rfl, hnext⟩))
          have hlength := (repaired_sublist (repaired ss)).length_le
          rw [h, List.length_cons] at hlength
          omega
        · have hkept : ¬(s = .char ',' ∧ BracketNext (repaired ss)) := by
            rw [bracketNext_repaired hquoted]
            rintro ⟨rfl, h | h⟩
            · exact hcomma ⟨rfl, h⟩
            · exact hdouble ⟨rfl, h⟩
          rw [repaired_cons hquoted.repaired hs hkept, List.cons_inj_right, ih,
            or_iff_right hdouble]

end Repaired

/-! ## Texts

A text is its segments put together, so equations between segments are equations between texts. What
is read is a question that only the repaired text has a part in. -/

theorem eq_of_segments_eq {text text' : List Char} (h : segments text = segments text') :
    text = text' := by
  rw [← chars_segments text, h, chars_segments]

theorem sanitize_sanitize_iff {text : List Char} :
    sanitize (sanitize text) = sanitize text ↔ ¬DoublesComma text := by
  rw [DoublesComma, ← repaired_repaired_iff (quoted_segments text), ← segments_sanitize,
    ← segments_sanitize]
  exact ⟨congrArg segments, eq_of_segments_eq⟩

theorem stripTrailingCommas_of_parse {text : List Char} {v : Json} (h : Json.parse text = .ok v) :
    stripTrailingCommas text = text := by
  obtain ⟨hspaced, hden⟩ := Json.denote_lexemes h
  rw [stripTrailingCommas_eq_dropAhead]
  exact dropAhead_of_spaced hspaced hden
    (Json.Reader.isChain_mayPrecede (Json.parse_eq_ok_iff.mp h))

theorem not_doublesComma_of_parse {text : List Char} {v : Json} (h : parse text = .ok v) :
    ¬DoublesComma text := by
  have hcommentless : IsCommentless (sanitize text) :=
    (isCommentless_stripComments text).stripTrailingCommas
  have hread : Json.parse (sanitize text) = .ok v := parse_eq_ok_iff_sanitize.mp h
  rw [← sanitize_sanitize_iff]
  calc sanitize (sanitize text)
      = stripTrailingCommas (sanitize text) := by rw [sanitize, hcommentless.stripComments_eq]
    _ = sanitize text := stripTrailingCommas_of_parse hread

/-- **What a second repair does.** It makes no difference exactly if the text doubles no comma, and
then what is read, or how reading fails, is the same. In a configuration that is read no comma is
doubled, so repairing it again never changes its value. -/
theorem sanitize_sanitize_eq_iff (text : List Char) :
    (sanitize (sanitize text) = sanitize text ↔ ¬DoublesComma text) ∧
      (¬DoublesComma text → parse (sanitize text) = parse text) ∧
      ∀ v, parse text = .ok v → ¬DoublesComma text ∧ parse (sanitize text) = .ok v := by
  have hsame : ¬DoublesComma text → parse (sanitize text) = parse text := by
    intro h
    rw [parse, parse, sanitize_sanitize_iff.mpr h]
  refine ⟨sanitize_sanitize_iff, hsame, fun v hv ↦ ?_⟩
  have hsingle := not_doublesComma_of_parse hv
  exact ⟨hsingle, (hsame hsingle).trans hv⟩

/-- Two commas before a bracket: after one repair the text is refused, after two it is read. -/
theorem repair_again_changes :
    sanitize (sanitize "[1,,]".toList) ≠ sanitize "[1,,]".toList ∧
      parse (sanitize "[1,,]".toList) ≠ parse "[1,,]".toList := by
  have hrefused : parse "[1,,]".toList =
      .error ⟨.danglingComma, ⟨1, 4⟩, 3, "[1,]".toList⟩ := by rfl
  have hread : parse (sanitize "[1,,]".toList) = .ok (.array [.number (.int 1)]) := by rfl
  refine ⟨by decide, ?_⟩
  rw [hread, hrefused]
  simp

end BarBridge.Jsonc
