import BarBridge.Jsonc.Reader
import BarBridge.Proofs.Json.FaultPlaces
import BarBridge.Proofs.Text.Boundaries

/-!
# Where a fault is reported

A configuration text that cannot be read is reported with a line, a column, the byte they point to
and the text around it, all in the repaired text. These are computed one from the other: the bytes
that a fault counts give line and column, line and column give a byte, and the byte gives the text
to show. They agree on every text and every fault (`fault_isExact`).

Two kinds of fault are reported at no character of their own: one at the end of the text, and one at
a line feed, which has column zero of the line that begins behind it. And the fourth byte of an
escape may lie inside a character; the byte reported is then the one where the character begins.
-/

namespace BarBridge.Jsonc

open Text

/-- What a fault reports is exact in a repaired text. -/
structure Fault.IsExact (clean : List Char) (f : Fault) : Prop where
  /-- The byte is a boundary within the text. -/
  boundary : IsBoundary clean f.offset
  offset_le : f.offset ≤ byteCount clean
  /-- As many lines have ended before the byte as the line says. -/
  line : ∃ before, before <+: clean ∧ byteCount before = f.offset ∧
    f.position.line = before.count '\n' + 1
  /-- Column zero is the beginning of the line, any other column its last byte, rounded down. -/
  column : ∃ lines, lines <+: clean ∧ WholeLines lines ∧
    f.position.line = lines.count '\n' + 1 ∧
    (f.position.column = 0 → f.offset = byteCount lines) ∧
    (f.position.column ≠ 0 →
      IsGreatest {b | IsBoundary clean b ∧ b ≤ byteCount lines + (f.position.column - 1)} f.offset)
  /-- The text shown is a slice, from one boundary within the text to a later one, -/
  context : ∃ start stop, start = floorBoundary clean (f.offset - contextRadius) ∧
    stop = floorBoundary clean (f.offset + contextRadius) ∧ start ≤ stop ∧
    stop ≤ byteCount clean ∧ IsSlice clean start stop f.context
  /-- and shows the character at the byte, where there is one. -/
  shown : f.offset < byteCount clean → ∃ skipped left c right rest,
    clean = skipped ++ (left ++ c :: right) ++ rest ∧ f.context = left ++ c :: right ∧
      byteCount (skipped ++ left) = f.offset

theorem exists_locate {clean : List Char} {f : Json.Fault} (h : f.index ≤ byteCount clean) :
    ∃ lines line after column, LineAt clean f.index lines line after ∧
      byteCount lines + column = f.index ∧
      (Fault.locate clean f).position = ⟨lines.count '\n' + 1, column⟩ ∧
      (Fault.locate clean f).offset = floorBoundary clean (byteCount lines + (column - 1)) := by
  obtain ⟨lines, line, after, hat, hposition⟩ := exists_positionAt h
  refine ⟨lines, line, after, f.index - byteCount lines, hat, ?_, hposition, ?_⟩
  · have := hat.begins
    omega
  · rw [Fault.locate, hposition, hat.offsetOf_eq]

/-- **What is reported is exact**, for every fault that counts bytes of the text. -/
theorem isExact_locate {clean : List Char} {f : Json.Fault} (h : f.index ≤ byteCount clean) :
    (Fault.locate clean f).IsExact clean := by
  obtain ⟨lines, line, after, column, hat, hindex, hposition, hoffset⟩ := exists_locate h
  obtain ⟨reached, hreached, htake⟩ :=
    hat.exists_takeBytes_eq (Nat.le_add_right _ (column - 1)) (by omega)
  have hprefix : lines ++ reached <+: clean := by
    rw [← htake]
    exact takeBytes_isPrefix _ _
  have hbytes : byteCount (lines ++ reached) = (Fault.locate clean f).offset := by
    rw [hoffset, floorBoundary, htake]
  have hboundary : IsBoundary clean (Fault.locate clean f).offset := ⟨_, hprefix, hbytes⟩
  have hlines : lines <+: clean := (List.prefix_append _ _).trans hprefix
  have hcount : (lines ++ reached).count '\n' = lines.count '\n' := by
    have hnone : '\n' ∉ reached := fun hmem ↦ hat.unbroken (hreached.subset hmem)
    rw [List.count_append, List.count_eq_zero.mpr hnone, Nat.add_zero]
  constructor
  case boundary => exact hboundary
  case offset_le => exact hboundary.le_byteCount
  case line => exact ⟨_, hprefix, hbytes, by rw [hposition, hcount]⟩
  case column =>
    refine ⟨lines, hlines, hat.whole, by rw [hposition], fun hzero ↦ ?_, fun _ ↦ ?_⟩
    · rw [hposition] at hzero
      rw [hoffset, show column = 0 from hzero]
      exact floorBoundary_of_isBoundary ⟨lines, hlines, rfl⟩
    · rw [hposition, hoffset]
      exact isGreatest_floorBoundary clean _
  case context =>
    refine ⟨_, _, rfl, rfl, ?_, (isBoundary_floorBoundary _ _).le_byteCount, isSlice_window _ _ _⟩
    exact floorBoundary_mono (by omega) clean
  case shown =>
    intro hlt
    obtain ⟨rest, hrest⟩ := hprefix
    -- Bytes are left, so there is a character behind what has been reached.
    rcases rest with _ | ⟨c, rest⟩
    · rw [List.append_nil] at hrest
      rw [← hbytes, hrest] at hlt
      exact absurd hlt (Nat.lt_irrefl _)
    · obtain ⟨skipped, left, right, rest', hskipped, hright, hwindow⟩ :=
        exists_window_eq (lines ++ reached) c rest (show 4 ≤ contextRadius by decide)
      refine ⟨skipped, left, c, right, rest', ?_, ?_, ?_⟩
      · rw [← hrest, hskipped, hright]
        simp
      · rw [← hwindow, hrest, hbytes]
        rfl
      · rw [← hskipped, hbytes]

theorem exists_eq_locate_of_parse {text : List Char} {f : Fault} (h : parse text = .error f) :
    ∃ g : Json.Fault, g.index ≤ byteCount (sanitize text) ∧ f = Fault.locate (sanitize text) g := by
  rw [parse] at h
  cases hparse : Json.parse (sanitize text) with
  | ok v =>
    rw [hparse] at h
    contradiction
  | error g =>
    rw [hparse] at h
    exact ⟨g, Json.index_le_of_parse hparse, (Except.error.inj h).symm⟩

/-- **Positions of faults are exact.** -/
theorem fault_isExact {text : List Char} {f : Fault} (h : parse text = .error f) :
    f.IsExact (sanitize text) := by
  obtain ⟨g, hg, rfl⟩ := exists_eq_locate_of_parse h
  exact isExact_locate hg

/-- An escape behind a comment whose fourth byte lies inside a character: the byte that the column
counts is the ninth, and the one reported is the eighth. -/
theorem fault_isExact_escape :
    parse "[ // é\n\"\\u12é\"]".toList =
        .error ⟨.escapeUnknown, ⟨2, 7⟩, 8, "[ \n\"\\u12é\"]".toList⟩ ∧
      Fault.IsExact (sanitize "[ // é\n\"\\u12é\"]".toList)
        ⟨.escapeUnknown, ⟨2, 7⟩, 8, "[ \n\"\\u12é\"]".toList⟩ := by
  have h : parse "[ // é\n\"\\u12é\"]".toList =
      .error ⟨.escapeUnknown, ⟨2, 7⟩, 8, "[ \n\"\\u12é\"]".toList⟩ := by rfl
  exact ⟨h, fault_isExact h⟩

end BarBridge.Jsonc
