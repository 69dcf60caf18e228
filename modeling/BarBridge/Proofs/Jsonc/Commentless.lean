import BarBridge.Proofs.Jsonc.DanglingPlaces
import BarBridge.Proofs.Jsonc.Segments

/-!
# Texts without comments

A comment begins where a slash stands before a slash or a star, outside the literals. A text in
which none begins is left alone when comments are deleted (`stripComments_eq_self_iff`). The main
statement is that repair makes such a text, after the first pass and after the second, so that
comments need not be looked for again (`isCommentless_of_repair`).

Both passes delete characters, and what stood on either side of them comes to stand together. That
no comment arises in this way is known of the cut into segments, and is brought here to single
characters: where the segments hold no comment, no two characters outside the literals begin one
(`isCommentless_iff`).

## Two notions of outside

A place is outside the literals by the quotes before it, whatever comments there are. For a text
with comments this is not where the reader of segments is in code, since a quote in a comment
begins a literal on one side only. Up to the first comment the two agree, and this is enough: a text
has a comment exactly if it has a first one.
-/

namespace BarBridge.Jsonc

open Json

/-- Whether no comment begins in a text: outside its literals, no slash stands before a slash or a
star. -/
def IsCommentless (text : List Char) : Prop :=
  ∀ before c after, text = before ++ '/' :: c :: after → Outside before → c ≠ '/' ∧ c ≠ '*'

/-! ## From segments to characters -/

theorem segmentsFrom_literal {body : List Char} (h : Escaped body) (read rest : List Char) :
    segmentsFrom (.literal read) (body ++ '"' :: rest) =
      .literal (read.reverse ++ body ++ ['"']) :: segments rest := by
  induction h generalizing read with
  | nil =>
    rw [List.nil_append, segmentsFrom, if_neg (by decide), if_pos rfl, List.reverse_cons,
      List.append_nil, segments]
  | plain hquote hslash _ ih =>
    rw [List.cons_append, segmentsFrom, if_neg hslash, if_neg hquote, ih]
    simp
  | escape c _ ih =>
    rw [List.cons_append, List.cons_append, segmentsFrom, if_pos rfl, segmentsFrom, ih]
    simp

theorem opensComment_iff {c : Char} {cs : List Char} :
    opensComment c cs ↔ ∃ d after, c :: cs = '/' :: d :: after ∧ (d = '/' ∨ d = '*') := by
  constructor
  · rintro ⟨rfl, hhead⟩
    rcases cs with _ | ⟨d, after⟩
    · simp at hhead
    · exact ⟨d, after, rfl, by simpa using hhead⟩
  · rintro ⟨d, after, heq, hd⟩
    obtain ⟨rfl, rfl⟩ := List.cons.inj heq
    exact ⟨rfl, by simpa using hd⟩

theorem not_opensComment_of_free {c : Char} {cs : List Char}
    (h : ∀ s ∈ segments (c :: cs), s.isComment = false) : ¬opensComment c cs := by
  rw [opensComment_iff]
  rintro ⟨d, after, heq, rfl | rfl⟩
  · rw [heq, segments, segmentsFrom] at h
    exact absurd (uncommented_eq_of_free h) (by simp [Within.uncommented])
  · rw [heq, segments, segmentsFrom] at h
    exact absurd (uncommented_eq_of_free h) (by simp [Within.uncommented])

theorem free_of_outside {before rest : List Char} (hbefore : Outside before)
    (h : ∀ s ∈ segments (before ++ rest), s.isComment = false) :
    ∀ s ∈ segments rest, s.isComment = false := by
  induction hbefore with
  | nil => exact h
  | char hquote _ ih =>
    rw [List.cons_append, segments, segmentsFrom_code_cons (not_opensComment_of_free h),
      if_neg hquote] at h
    exact ih fun s hs ↦ h s (List.mem_cons_of_mem _ hs)
  | literal hbody _ ih =>
    rw [List.cons_append, List.append_assoc, List.cons_append, segments,
      segmentsFrom_code_cons fun h' ↦ absurd h'.1 (by decide), if_pos rfl,
      segmentsFrom_literal hbody] at h
    exact ih fun s hs ↦ h s (List.mem_cons_of_mem _ hs)

theorem isCommentless_of_free {text : List Char}
    (h : ∀ s ∈ segments text, s.isComment = false) : IsCommentless text := by
  rintro before c after rfl hbefore
  have hopens := not_opensComment_of_free (free_of_outside hbefore h)
  rw [opensComment_iff] at hopens
  exact ⟨fun hc ↦ hopens ⟨c, after, rfl, .inl hc⟩, fun hc ↦ hopens ⟨c, after, rfl, .inr hc⟩⟩

/-! ## From characters to segments

One scanner knows whether it is in a comment, the other only whether it is in a literal. As long as
no comment begins they go in step, and the first of them has nothing to delete. -/

/-- Where the comment scanner stands in a text without comments. -/
def Literal.region : Literal → Region
  | .outside => .code
  | .inside => .string
  | .escape => .escape

theorem dropComments_region_cons {place : Literal} {c : Char} {cs : List Char}
    (h : place = .outside → ¬opensComment c cs) :
    dropComments place.region (c :: cs) = c :: dropComments (place.next c).region cs := by
  cases place with
  | outside =>
    rw [Literal.region, dropComments_code_cons (h rfl), Literal.next, apply_ite Literal.region]
    rfl
  | inside =>
    rw [Literal.region, dropComments, Literal.next, apply_ite Literal.region,
      apply_ite Literal.region]
    rfl
  | escape =>
    rw [Literal.region, dropComments]
    rfl

/-- Where no comment begins, none is deleted. The induction is on the text, read from any place. -/
theorem dropComments_eq_self {place : Literal} {text : List Char}
    (h : ∀ before c after, text = before ++ '/' :: c :: after →
      placeAfter place before = .outside → c ≠ '/' ∧ c ≠ '*') :
    dropComments place.region text = text := by
  induction text generalizing place with
  | nil => cases place <;> rfl
  | cons d text ih =>
    have hopens : place = .outside → ¬opensComment d text := by
      intro hplace hopens
      obtain ⟨c, after, htext, hc⟩ := opensComment_iff.mp hopens
      obtain ⟨hslash, hstar⟩ := h [] c after htext hplace
      exact hc.elim hslash hstar
    rw [dropComments_region_cons hopens, ih fun before c after htext hplace ↦ ?_]
    exact h (d :: before) c after (by rw [htext, List.cons_append]) hplace

theorem IsCommentless.stripComments_eq {text : List Char} (h : IsCommentless text) :
    stripComments text = text :=
  @dropComments_eq_self .outside text fun before c after htext hplace ↦
    h before c after htext (outside_iff.mpr hplace)

theorem free_stripComments (text : List Char) :
    ∀ s ∈ segments (stripComments text), s.isComment = false := by
  intro s hs
  rw [segments_stripComments, List.mem_filter] at hs
  simpa using hs.2

/-- **No comment begins where there is none among the segments.** -/
theorem isCommentless_iff {text : List Char} :
    IsCommentless text ↔ ∀ s ∈ segments text, s.isComment = false := by
  constructor
  · intro h
    rw [← h.stripComments_eq]
    exact free_stripComments text
  · exact isCommentless_of_free

theorem stripComments_eq_self_iff {text : List Char} :
    stripComments text = text ↔ IsCommentless text := by
  constructor
  · intro h
    rw [isCommentless_iff, ← h]
    exact free_stripComments text
  · exact IsCommentless.stripComments_eq

/-! ## What repair leaves -/

theorem isCommentless_stripComments (text : List Char) : IsCommentless (stripComments text) :=
  isCommentless_iff.mpr (free_stripComments text)

theorem dropCommas_sublist (ss : List Segment) : (dropCommas ss).Sublist ss := by
  induction ss with
  | nil => exact .refl []
  | cons s ss ih =>
    rw [dropCommas]
    split
    · exact ih.cons s
    · exact ih.cons_cons s

theorem IsCommentless.stripTrailingCommas {text : List Char} (h : IsCommentless text) :
    IsCommentless (stripTrailingCommas text) := by
  rw [isCommentless_iff] at h ⊢
  have hcut : segments (BarBridge.Jsonc.stripTrailingCommas text) = dropCommas (segments text) := by
    rw [stripTrailingCommas_eq_dropAhead]
    exact segmentsFrom_dropAhead .code text h
  rw [hcut]
  exact fun s hs ↦ h s ((dropCommas_sublist _).subset hs)

/-- **Repair leaves nothing that looks like a comment.** Neither deleting comments nor deleting
dangling commas brings two characters together that begin one, so deleting comments once more makes
no difference, after either pass. -/
theorem isCommentless_of_repair (text : List Char) :
    (IsCommentless (stripComments text) ∧
        stripComments (stripComments text) = stripComments text) ∧
      IsCommentless (sanitize text) ∧ stripComments (sanitize text) = sanitize text := by
  have hfirst := isCommentless_stripComments text
  have hsecond : IsCommentless (sanitize text) := hfirst.stripTrailingCommas
  exact ⟨⟨hfirst, stripComments_eq_self_iff.mpr hfirst⟩, hsecond,
    stripComments_eq_self_iff.mpr hsecond⟩

end BarBridge.Jsonc
