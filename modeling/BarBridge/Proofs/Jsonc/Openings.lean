import BarBridge.Proofs.Jsonc.StrictText

/-!
# What repair does first

Outside its literals a configuration text goes on in one of a few ways: with a comment, closed or
not, or with another character. What repair makes of the text is stated for each of them, as an
equation between the repair of the text and the repair of what is left (`sanitize_line` and those
beside it). Whether a comma goes depends on what follows it, comments aside; for that, too, there is
an equation in each case.

A proof about any text that repair is given takes these cases one by one (`opening`). Comments are
taken whole, so such a proof is by induction on the length of the text.
-/

namespace BarBridge.Jsonc

open Json Text

/-! ## Where a comment ends -/

theorem exists_block_or_open (cs : List Char) :
    (∃ body rest, ¬['*', '/'] <:+: body ∧ cs = body ++ '*' :: '/' :: rest) ∨
      ¬['*', '/'] <:+: cs := by
  induction cs with
  | nil => exact .inr (by decide)
  | cons c cs ih =>
    by_cases hend : c = '*' ∧ cs.head? = some '/'
    · obtain ⟨rfl, hhead⟩ := hend
      obtain ⟨rest, rfl⟩ : ∃ rest, cs = '/' :: rest := List.head?_eq_some_iff.mp hhead
      exact .inl ⟨[], rest, by decide, rfl⟩
    · -- The comment does not end here, so it ends where the rest of it ends.
      have hcons : ∀ body : List Char, ¬['*', '/'] <:+: body →
          (body.head? = some '/' → cs.head? = some '/') → ¬['*', '/'] <:+: c :: body := by
        intro body hbody hhead hinfix
        rcases List.infix_cons_iff.mp hinfix with hprefix | hinfix
        · obtain ⟨hc, hprefix⟩ := List.cons_prefix_cons.mp hprefix
          obtain ⟨rest, rfl⟩ := hprefix
          exact hend ⟨hc.symm, hhead rfl⟩
        · exact hbody hinfix
      rcases ih with ⟨body, rest, hbody, rfl⟩ | hopen
      · refine .inl ⟨c :: body, rest, hcons body hbody fun hhead ↦ ?_, rfl⟩
        obtain ⟨body', rfl⟩ : ∃ body', body = '/' :: body' := List.head?_eq_some_iff.mp hhead
        rfl
      · exact .inr (hcons cs hopen id)

/-- What code may begin with: nothing, a comment with or without an end, or another character. -/
inductive Opening : List Char → Prop where
  | nil : Opening []
  | openLine {body : List Char} (hbody : '\n' ∉ body) : Opening ('/' :: '/' :: body)
  | line {body : List Char} (hbody : '\n' ∉ body) (cs : List Char) :
      Opening ('/' :: '/' :: (body ++ '\n' :: cs))
  | openBlock {body : List Char} (hbody : ¬['*', '/'] <:+: body) : Opening ('/' :: '*' :: body)
  | block {body : List Char} (hbody : ¬['*', '/'] <:+: body) (cs : List Char) :
      Opening ('/' :: '*' :: (body ++ '*' :: '/' :: cs))
  | char {c : Char} {cs : List Char} (h : ¬opensComment c cs) : Opening (c :: cs)

theorem opening (text : List Char) : Opening text := by
  rcases text with _ | ⟨c, cs⟩
  · exact .nil
  by_cases h : opensComment c cs
  · obtain ⟨rfl, hhead | hhead⟩ := h
    · obtain ⟨body, rfl⟩ : ∃ body, cs = '/' :: body := List.head?_eq_some_iff.mp hhead
      by_cases hfeed : '\n' ∈ body
      · obtain ⟨line, rest, rfl, hline⟩ := List.eq_append_cons_of_mem hfeed
        exact .line hline rest
      · exact .openLine hfeed
    · obtain ⟨body, rfl⟩ : ∃ body, cs = '*' :: body := List.head?_eq_some_iff.mp hhead
      rcases exists_block_or_open body with ⟨body, rest, hbody, rfl⟩ | hopen
      · exact .block hbody rest
      · exact .openBlock hopen
  · exact .char h

/-! ## What repair makes of an opening -/

@[simp] theorem sanitize_nil : sanitize [] = [] := rfl

theorem sanitize_openLine {body : List Char} (h : '\n' ∉ body) :
    sanitize ('/' :: '/' :: body) = [] := by
  rw [sanitize_eq, dropComments, dropComments_openLine h]
  rfl

/-- Of a line comment the line feed is left. -/
theorem sanitize_line {body : List Char} (h : '\n' ∉ body) (cs : List Char) :
    sanitize ('/' :: '/' :: (body ++ '\n' :: cs)) = '\n' :: sanitize cs := by
  rw [sanitize_eq, dropComments, dropComments_line h, dropAhead_of_isGap rfl, sanitize_eq]

theorem dropComments_openBlock {body : List Char} (h : ¬['*', '/'] <:+: body) :
    dropComments .block body = [] := by
  induction body with
  | nil => rfl
  | cons c body ih =>
    have hend : ¬(c = '*' ∧ body.head? = some '/') := by
      rintro ⟨rfl, hhead⟩
      obtain ⟨rest, rfl⟩ : ∃ rest, body = '/' :: rest := List.head?_eq_some_iff.mp hhead
      exact h ⟨[], rest, rfl⟩
    rw [dropComments_block_cons hend]
    exact ih fun hinfix ↦ h (List.infix_cons hinfix)

theorem sanitize_openBlock {body : List Char} (h : ¬['*', '/'] <:+: body) :
    sanitize ('/' :: '*' :: body) = [] := by
  rw [sanitize_eq, dropComments, dropComments_openBlock h]
  rfl

theorem sanitize_block {body : List Char} (h : ¬['*', '/'] <:+: body) (cs : List Char) :
    sanitize ('/' :: '*' :: (body ++ '*' :: '/' :: cs)) = sanitize cs := by
  rw [sanitize_eq, dropComments, dropComments_block h, sanitize_eq]

/-- Whether a bracket is ahead, comments aside. -/
def bracketFollows (text : List Char) : Bool :=
  bracketAhead (dropComments .code text)

theorem sanitize_comma {cs : List Char} (h : bracketFollows cs = true) :
    sanitize (',' :: cs) = sanitize cs := by
  have hopens : ¬opensComment ',' cs := fun h' ↦ absurd h'.1 (by decide)
  rw [sanitize_eq, dropComments_code_cons hopens, if_neg (by decide), dropAhead, if_pos ⟨rfl, h⟩,
    sanitize_eq]

theorem sanitize_quote (cs : List Char) :
    sanitize ('"' :: cs) = '"' :: dropAhead .inside (dropComments .string cs) := by
  have hopens : ¬opensComment '"' cs := fun h' ↦ absurd h'.1 (by decide)
  rw [sanitize_eq, dropComments_code_cons hopens, if_pos rfl, dropAhead,
    if_neg fun h' ↦ absurd h'.1 (by decide), if_pos rfl]

theorem sanitize_char {c : Char} {cs : List Char} (hopens : ¬opensComment c cs) (hquote : c ≠ '"')
    (hcomma : ¬(c = ',' ∧ bracketFollows cs = true)) : sanitize (c :: cs) = c :: sanitize cs := by
  rw [bracketFollows] at hcomma
  rw [sanitize_eq, dropComments_code_cons hopens, if_neg hquote, dropAhead, if_neg hcomma,
    if_neg hquote, sanitize_eq]

/-! ## What follows, comments aside

A comment in front makes no difference to the answer, and neither does a blank. A comma does: it is
what comes next, whether or not it is deleted afterwards. -/

theorem bracketFollows_line {body : List Char} (h : '\n' ∉ body) (cs : List Char) :
    bracketFollows ('/' :: '/' :: (body ++ '\n' :: cs)) = bracketFollows cs := by
  rw [bracketFollows, dropComments, dropComments_line h, bracketAhead_cons_blank (by decide),
    bracketFollows]

theorem bracketFollows_block {body : List Char} (h : ¬['*', '/'] <:+: body) (cs : List Char) :
    bracketFollows ('/' :: '*' :: (body ++ '*' :: '/' :: cs)) = bracketFollows cs := by
  rw [bracketFollows, dropComments, dropComments_block h, bracketFollows]

theorem bracketFollows_of_isGap {c : Char} (h : isGap c = true) (cs : List Char) :
    bracketFollows (c :: cs) = bracketFollows cs := by
  rw [bracketFollows, dropComments_of_isGap h, bracketAhead_cons_blank (isBlank_of_isGap h),
    bracketFollows]

theorem bracketFollows_comma (cs : List Char) : bracketFollows (',' :: cs) = false := by
  have hopens : ¬opensComment ',' cs := fun h ↦ absurd h.1 (by decide)
  rw [bracketFollows, dropComments_code_cons hopens, bracketAhead_cons (by decide)]
  rfl

theorem bracketAhead_dropAhead {cs : List Char} (h : bracketAhead cs = true) :
    bracketAhead (dropAhead .outside cs) = true := by
  induction cs with
  | nil => exact absurd h (by decide)
  | cons c cs ih =>
    cases hblank : isBlank c with
    | true =>
      have hcomma : ¬(c = ',' ∧ bracketAhead cs = true) := by
        rintro ⟨rfl, -⟩
        exact absurd hblank (by decide)
      have hquote : c ≠ '"' := by
        rintro rfl
        exact absurd hblank (by decide)
      rw [bracketAhead_cons_blank hblank] at h
      rw [dropAhead, if_neg hcomma, if_neg hquote, bracketAhead_cons_blank hblank, ih h]
    | false =>
      rw [bracketAhead_cons hblank] at h
      have hcomma : ¬(c = ',' ∧ bracketAhead cs = true) := by
        rintro ⟨rfl, -⟩
        exact absurd h (by decide)
      rw [dropAhead, if_neg hcomma, bracketAhead_cons hblank, h]

end BarBridge.Jsonc
