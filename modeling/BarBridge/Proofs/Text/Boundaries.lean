import BarBridge.Text.Bytes
import Mathlib.Data.List.Infix
import Mathlib.Order.Bounds.Basic

/-!
# Boundaries, slices and lines

A byte of a text is a boundary if a beginning of the text ends there. `floorBoundary` is the last
boundary that a number of bytes reaches (`isGreatest_floorBoundary`), and `window` is what stands
between two boundaries (`isSlice_window`), whatever the offset and the radius.

A position counts lines, and is meant to be turned back into a byte. What carries this is the shape
of the text around it: whole lines, then a part of one more line. `positionAt` gives the number of
those lines and how far the part reaches (`exists_positionAt`), and `offsetOf` goes the same way
back to the character that the last byte belongs to.
-/

namespace BarBridge.Text

variable {text before part rest : List Char} {n : Nat}

/-- Whether a beginning of a text ends at a byte. -/
def IsBoundary (text : List Char) (n : Nat) : Prop :=
  ∃ before, before <+: text ∧ byteCount before = n

/-- Whether a part of a text stands between two bytes. Both are boundaries, in order and within the
text. -/
def IsSlice (text : List Char) (start stop : Nat) (part : List Char) : Prop :=
  ∃ before after, text = before ++ part ++ after ∧ byteCount before = start ∧
    byteCount (before ++ part) = stop

/-- Whether a text consists of lines that have ended. -/
def WholeLines (text : List Char) : Prop :=
  text = [] ∨ ∃ lines, text = lines ++ ['\n']

/-- The shape of a text around a byte: the lines that have ended before it, the line it belongs to
as far as it has no line feed, and the rest. -/
structure LineAt (text : List Char) (index : Nat) (before line after : List Char) : Prop where
  text_eq : text = before ++ line ++ after
  whole : WholeLines before
  unbroken : '\n' ∉ line
  begins : byteCount before ≤ index
  reaches : index ≤ byteCount (before ++ line)

/-! ## Beginnings

Of two beginnings of a text the one with no more bytes is a beginning of the other. So a beginning
is determined by the number of its bytes, and it makes sense to speak of the text up to a byte. -/

theorem byteCount_le_of_prefix (h : before <+: text) : byteCount before ≤ byteCount text := by
  obtain ⟨rest, rfl⟩ := h
  rw [byteCount_append]
  exact Nat.le_add_right _ _

theorem eq_nil_of_byteCount (h : byteCount text = 0) : text = [] := by
  cases text with
  | nil => rfl
  | cons c cs =>
    rw [byteCount_cons] at h
    exact absurd h (by have := c.utf8Size_pos; omega)

theorem prefix_of_byteCount_le {a b : List Char} (ha : a <+: text) (hb : b <+: text)
    (h : byteCount a ≤ byteCount b) : a <+: b := by
  rcases List.prefix_or_prefix_of_prefix ha hb with hab | ⟨rest, rfl⟩
  · exact hab
  · rw [byteCount_append] at h
    rw [eq_nil_of_byteCount (show byteCount rest = 0 by omega), List.append_nil]

theorem eq_of_byteCount_eq {a b : List Char} (ha : a <+: text) (hb : b <+: text)
    (h : byteCount a = byteCount b) : a = b :=
  (prefix_of_byteCount_le ha hb h.le).eq_of_length_le (prefix_of_byteCount_le hb ha h.ge).length_le

theorem prefix_takeBytes (h : before <+: text) (hn : byteCount before ≤ n) :
    before <+: takeBytes n text := by
  induction text generalizing before n with
  | nil =>
    rw [List.prefix_nil.mp h]
    exact List.nil_prefix
  | cons c cs ih =>
    rcases before with _ | ⟨d, before⟩
    · exact List.nil_prefix
    · obtain ⟨rfl, hrest⟩ := List.cons_prefix_cons.mp h
      rw [byteCount_cons] at hn
      rw [takeBytes, if_pos (by omega)]
      exact List.cons_prefix_cons.mpr ⟨rfl, ih hrest (by omega)⟩

theorem takeBytes_append (before rest : List Char) (n : Nat) :
    takeBytes (byteCount before + n) (before ++ rest) = before ++ takeBytes n rest := by
  induction before with
  | nil => rw [byteCount_nil, Nat.zero_add, List.nil_append, List.nil_append]
  | cons c cs ih =>
    rw [byteCount_cons, List.cons_append, takeBytes, if_pos (by omega),
      show c.utf8Size + byteCount cs + n - c.utf8Size = byteCount cs + n by omega, ih,
      List.cons_append]

theorem takeBytes_prefix_takeBytes {m : Nat} (h : m ≤ n) (text : List Char) :
    takeBytes m text <+: takeBytes n text :=
  prefix_takeBytes (takeBytes_isPrefix m text) (le_trans (byteCount_takeBytes_le m text) h)

/-! ## Boundaries and slices -/

theorem isBoundary_floorBoundary (text : List Char) (n : Nat) :
    IsBoundary text (floorBoundary text n) :=
  ⟨takeBytes n text, takeBytes_isPrefix n text, rfl⟩

theorem IsBoundary.le_byteCount (h : IsBoundary text n) : n ≤ byteCount text := by
  obtain ⟨before, hbefore, rfl⟩ := h
  exact byteCount_le_of_prefix hbefore

/-- **Rounding down.** -/
theorem isGreatest_floorBoundary (text : List Char) (n : Nat) :
    IsGreatest {b | IsBoundary text b ∧ b ≤ n} (floorBoundary text n) := by
  refine ⟨⟨isBoundary_floorBoundary text n, byteCount_takeBytes_le n text⟩, ?_⟩
  rintro b ⟨⟨before, hbefore, rfl⟩, hb⟩
  exact byteCount_le_of_prefix (prefix_takeBytes hbefore hb)

theorem le_floorBoundary {b : Nat} (h : IsBoundary text b) (hb : b ≤ n) :
    b ≤ floorBoundary text n :=
  (isGreatest_floorBoundary text n).2 ⟨h, hb⟩

theorem floorBoundary_mono {m : Nat} (h : m ≤ n) (text : List Char) :
    floorBoundary text m ≤ floorBoundary text n :=
  le_floorBoundary (isBoundary_floorBoundary text m) (le_trans (byteCount_takeBytes_le m text) h)

theorem isBoundary_behind (before : List Char) (c : Char) (after : List Char) :
    IsBoundary (before ++ c :: after) (byteCount before + c.utf8Size) :=
  ⟨before ++ [c], (List.prefix_append_right_inj before).mpr ⟨after, rfl⟩, by simp⟩

theorem floorBoundary_of_isBoundary (h : IsBoundary text n) : floorBoundary text n = n :=
  (isGreatest_floorBoundary text n).unique ⟨⟨h, le_refl n⟩, fun _ hb ↦ hb.2⟩

/-- **A window is a slice**, from one rounded end to the other. -/
theorem isSlice_window (text : List Char) (offset radius : Nat) :
    IsSlice text (floorBoundary text (offset - radius)) (floorBoundary text (offset + radius))
      (window text offset radius) := by
  obtain ⟨part, hpart⟩ :=
    takeBytes_prefix_takeBytes (show offset - radius ≤ offset + radius by omega) text
  obtain ⟨after, hafter⟩ := takeBytes_isPrefix (offset + radius) text
  have hwindow : window text offset radius = part := by
    rw [window, ← hpart, List.drop_left]
  refine ⟨takeBytes (offset - radius) text, after, ?_, rfl, ?_⟩
  · rw [hwindow, hpart, hafter]
  · rw [hwindow, hpart, floorBoundary]

/-- **A slice holds what stands between its bounds.** -/
theorem IsSlice.exists_around {c : Char} {after : List Char} {start stop : Nat}
    (h : IsSlice (before ++ c :: after) start stop part) (hstart : start ≤ byteCount before)
    (hstop : byteCount before + c.utf8Size ≤ stop) :
    ∃ skipped left right rest, before = skipped ++ left ∧ after = right ++ rest ∧
      part = left ++ c :: right ∧ byteCount skipped = start := by
  obtain ⟨skipped, rest, htext, rfl, rfl⟩ := h
  have hbefore : before <+: before ++ c :: after := List.prefix_append _ _
  have hthrough : before ++ [c] <+: before ++ c :: after :=
    (List.prefix_append_right_inj before).mpr ⟨after, rfl⟩
  have hskipped : skipped <+: before ++ c :: after := ⟨part ++ rest, by rw [htext]; simp⟩
  have hpart : skipped ++ part <+: before ++ c :: after := ⟨rest, htext.symm⟩
  -- The slice begins no later than the character, and ends no earlier.
  obtain ⟨left, rfl⟩ := prefix_of_byteCount_le hskipped hbefore hstart
  obtain ⟨right, hright⟩ : skipped ++ left ++ [c] <+: skipped ++ part := by
    refine prefix_of_byteCount_le hthrough hpart ?_
    rwa [byteCount_append, byteCount_cons, byteCount_nil, Nat.add_zero]
  have hpart_eq : part = left ++ c :: right := by
    rw [List.append_assoc, List.append_assoc] at hright
    exact (List.append_cancel_left hright).symm
  refine ⟨skipped, left, right, rest, rfl, ?_, hpart_eq, rfl⟩
  rw [hpart_eq] at htext
  simpa using htext

theorem exists_window_eq (before : List Char) (c : Char) (after : List Char) {radius : Nat}
    (hradius : 4 ≤ radius) :
    ∃ skipped left right rest, before = skipped ++ left ∧ after = right ++ rest ∧
      window (before ++ c :: after) (byteCount before) radius = left ++ c :: right := by
  have hends : byteCount before + c.utf8Size ≤
      floorBoundary (before ++ c :: after) (byteCount before + radius) :=
    le_floorBoundary (isBoundary_behind before c after) (by have := c.utf8Size_le_four; omega)
  obtain ⟨skipped, left, right, rest, hbefore, hafter, hwindow, -⟩ :=
    (isSlice_window (before ++ c :: after) (byteCount before) radius).exists_around
      (le_trans (byteCount_takeBytes_le _ _) (Nat.sub_le _ _)) hends
  exact ⟨skipped, left, right, rest, hbefore, hafter, hwindow⟩

/-! ## Lines -/

theorem wholeLines_append_feed (before : List Char) : WholeLines (before ++ ['\n']) :=
  .inr ⟨before, rfl⟩

theorem WholeLines.of_cons {c : Char} (h : WholeLines (c :: before)) : WholeLines before := by
  rcases h with h | ⟨lines, h⟩
  · exact absurd h (by simp)
  · rcases lines with _ | ⟨d, lines⟩
    · exact .inl (List.cons.inj h).2
    · exact .inr ⟨lines, (List.cons.inj h).2⟩

theorem WholeLines.count_pos {c : Char} (h : WholeLines (c :: before)) (hc : c ≠ '\n') :
    0 < before.count '\n' := by
  rcases h with h | ⟨lines, h⟩
  · exact absurd h (by simp)
  · rw [List.count_pos_iff]
    have hmem : '\n' ∈ c :: before := by
      rw [h]
      simp
    exact (List.mem_cons.mp hmem).resolve_left hc.symm

theorem lineStart_of_wholeLines (h : WholeLines before) (rest : List Char) :
    lineStart (before.count '\n') (before ++ rest) = byteCount before := by
  induction before with
  | nil => cases rest <;> rfl
  | cons c before ih =>
    by_cases hc : c = '\n'
    · subst hc
      rw [List.count_cons_self, List.cons_append, lineStart, if_pos rfl, ih h.of_cons]
      rfl
    · obtain ⟨lines, hlines⟩ := Nat.exists_eq_add_one_of_ne_zero (h.count_pos hc).ne'
      have hrest := ih h.of_cons
      rw [hlines] at hrest
      rw [List.count_cons_of_ne hc, hlines, List.cons_append, lineStart, if_neg hc, hrest,
        byteCount_cons]

/-- The induction is on the text still to be scanned; the whole lines and the part of a line before
it are what the scanner has counted. -/
theorem exists_positionFrom {index : Nat} {before line : List Char} (hbefore : WholeLines before)
    (hline : '\n' ∉ line) (hlow : byteCount before ≤ index)
    (hhigh : index ≤ byteCount (before ++ line ++ text)) :
    ∃ before' line' after, LineAt (before ++ line ++ text) index before' line' after ∧
      positionFrom index (before.count '\n' + 1) (byteCount before) (byteCount (before ++ line))
        text = ⟨before'.count '\n' + 1, index - byteCount before'⟩ := by
  induction text generalizing before line with
  | nil =>
    rw [List.append_nil] at hhigh
    exact ⟨before, line, [], ⟨rfl, hbefore, hline, hlow, hhigh⟩, rfl⟩
  | cons c text ih =>
    rw [positionFrom]
    split
    · next hindex => exact ⟨before, line, c :: text, ⟨rfl, hbefore, hline, hlow, hindex⟩, rfl⟩
    split
    · next hindex hc =>
      -- The line ends here, and another one begins.
      subst hc
      have htext : before ++ line ++ '\n' :: text = before ++ line ++ ['\n'] ++ [] ++ text := by
        simp
      have hcount : (before ++ line ++ ['\n']).count '\n' = before.count '\n' + 1 := by
        simp [List.count_eq_zero.mpr hline]
      have hbytes : byteCount (before ++ line ++ ['\n']) = byteCount (before ++ line) + 1 := by
        rw [byteCount_append]
        rfl
      have hnil : byteCount (before ++ line ++ ['\n'] ++ []) = byteCount (before ++ line) + 1 := by
        rw [List.append_nil, hbytes]
      rw [htext] at hhigh ⊢
      have hrest := ih (wholeLines_append_feed (before ++ line)) List.not_mem_nil (by omega) hhigh
      rwa [hcount, hnil, hbytes] at hrest
    · next hindex hc =>
      have htext : before ++ line ++ c :: text = before ++ (line ++ [c]) ++ text := by simp
      have hbytes :
          byteCount (before ++ (line ++ [c])) = byteCount (before ++ line) + c.utf8Size := by
        simp [Nat.add_assoc]
      have hfeed : '\n' ∉ line ++ [c] := by simp [hline, Ne.symm hc]
      rw [htext] at hhigh ⊢
      have hrest := ih hbefore hfeed hlow hhigh
      rwa [hbytes] at hrest

/-- **The position of a byte.** -/
theorem exists_positionAt {index : Nat} (h : index ≤ byteCount text) :
    ∃ before line after, LineAt text index before line after ∧
      positionAt text index = ⟨before.count '\n' + 1, index - byteCount before⟩ :=
  exists_positionFrom (.inl rfl) List.not_mem_nil (Nat.zero_le index) h

/-! ## Back to a byte

The byte that a column points to is the last one counted, and this may lie inside a character. So it
is rounded down once more. -/

namespace LineAt

variable {index : Nat} {line after : List Char}

theorem exists_takeBytes_eq (h : LineAt text index before line after) (hlow : byteCount before ≤ n)
    (hhigh : n ≤ index) : ∃ reached, reached <+: line ∧ takeBytes n text = before ++ reached := by
  obtain ⟨k, rfl⟩ := Nat.exists_eq_add_of_le hlow
  have htake : takeBytes (byteCount before + k) text = before ++ takeBytes k (line ++ after) := by
    rw [h.text_eq, List.append_assoc, takeBytes_append]
  have hreaches := h.reaches
  rw [byteCount_append] at hreaches
  refine ⟨_, ?_, htake⟩
  refine prefix_of_byteCount_le (takeBytes_isPrefix k _) (List.prefix_append line after) ?_
  exact le_trans (byteCount_takeBytes_le k _) (by omega)

/-- The byte that a position points to: the last one read, or the beginning of a line of which
nothing has been read. -/
theorem offsetOf_eq (h : LineAt text index before line after) (column : Nat) :
    offsetOf text ⟨before.count '\n' + 1, column⟩ =
      floorBoundary text (byteCount before + (column - 1)) := by
  rw [offsetOf, Nat.add_sub_cancel, h.text_eq, List.append_assoc, lineStart_of_wholeLines h.whole]

end LineAt

end BarBridge.Text
