import BarBridge.Number.Decimal
import BarBridge.Text.Blank
import Mathlib.Data.List.TakeWhile

/-!
# Words between blanks

A scheduling word is read after the blanks at both of its ends are taken off. `Pads text word` says
the same without an order of steps: the text is the word with blanks around it. The word is not
determined by that alone, since some of the blanks could belong to it; it is where no character of
the word is a blank (`Pads.trim_eq`), as in the words and numbers that can be read here. All of
their characters are visible ones of ASCII.
-/

namespace BarBridge

namespace Text

/-! ## Padding -/

/-- A text that is a word with blanks before and behind it. -/
def Pads (text word : List Char) : Prop :=
  ∃ before behind, text = before ++ word ++ behind ∧
    (∀ c ∈ before, isBlank c = true) ∧ ∀ c ∈ behind, isBlank c = true

theorem pads_trim (text : List Char) : Pads text (trim text) := by
  have hfront := List.takeWhile_append_dropWhile (p := isBlank) (l := text)
  have hback := List.takeWhile_append_dropWhile (p := isBlank)
    (l := (text.dropWhile isBlank).reverse)
  refine ⟨text.takeWhile isBlank, ((text.dropWhile isBlank).reverse.takeWhile isBlank).reverse,
    ?_, fun c hc ↦ List.mem_takeWhile_imp hc, ?_⟩
  · rw [trim, List.append_assoc, ← List.reverse_append, hback, List.reverse_reverse, hfront]
  · intro c hc
    exact List.mem_takeWhile_imp (List.mem_reverse.mp hc)

/-- **Trimming finds the word**, where the word has no blanks. -/
theorem Pads.trim_eq {text word : List Char} (h : Pads text word)
    (hword : ∀ c ∈ word, isBlank c = false) : trim text = word := by
  obtain ⟨before, behind, rfl, hbefore, hbehind⟩ := h
  cases word with
  | nil =>
    -- There is no word to stop at: all blanks go at the front.
    have hblank : ∀ c ∈ before ++ behind, isBlank c = true := by
      intro c hc
      exact (List.mem_append.mp hc).elim (hbefore c) (hbehind c)
    rw [trim, List.append_nil, List.dropWhile_eq_nil_iff.mpr hblank]
    rfl
  | cons c word =>
    have hfront : (before ++ (c :: word) ++ behind).dropWhile isBlank = c :: word ++ behind := by
      rw [List.append_assoc, List.dropWhile_append_of_pos hbefore, List.cons_append,
        List.dropWhile_cons_of_neg (by rw [hword c List.mem_cons_self]; decide)]
    have hbehind' : ∀ d ∈ behind.reverse, isBlank d = true :=
      fun d hd ↦ hbehind d (List.mem_reverse.mp hd)
    have hback : (c :: word).reverse.dropWhile isBlank = (c :: word).reverse := by
      rw [List.dropWhile_eq_self_iff]
      intro hlength hblank
      rw [hword _ (List.mem_reverse.mp (List.getElem_mem hlength))] at hblank
      contradiction
    rw [trim, hfront, List.reverse_append, List.dropWhile_append_of_pos hbehind', hback,
      List.reverse_reverse]

/-- A property of the word between the blanks is a property of what trimming leaves. -/
theorem pads_and_iff {text : List Char} {p : List Char → Prop}
    (hp : ∀ word, p word → ∀ c ∈ word, isBlank c = false) :
    (∃ word, Pads text word ∧ p word) ↔ p (trim text) := by
  constructor
  · rintro ⟨word, hpads, hword⟩
    rwa [hpads.trim_eq (hp word hword)]
  · intro h
    exact ⟨trim text, pads_trim text, h⟩

/-! ## Visible characters -/

/-- A character of ASCII that is printed and not a space. -/
def IsVisible (c : Char) : Prop :=
  0x21 ≤ c.toNat ∧ c.toNat ≤ 0x7E

instance : DecidablePred IsVisible := fun c ↦
  inferInstanceAs (Decidable (0x21 ≤ c.toNat ∧ c.toNat ≤ 0x7E))

theorem IsVisible.isBlank {c : Char} (h : IsVisible c) : isBlank c = false := by
  obtain ⟨hlow, hhigh⟩ := h
  simp only [Text.isBlank, inRuns, blankRuns, List.any_cons, List.any_nil, Bool.or_eq_false_iff,
    Bool.and_eq_false_iff, decide_eq_false_iff_not, and_true]
  refine ⟨?_, ?_, ?_, ?_, ?_, ?_, ?_, ?_, ?_, ?_⟩ <;> omega

theorem isVisible_of_isDigit {c : Char} (h : c.isDigit = true) : IsVisible c := by
  simp only [Char.isDigit, Bool.and_eq_true, decide_eq_true_eq, ge_iff_le,
    UInt32.le_iff_toNat_le] at h
  have hbounds : '0'.val.toNat = 0x30 ∧ '9'.val.toNat = 0x39 := ⟨rfl, rfl⟩
  have hvalue : c.toNat = c.val.toNat := rfl
  unfold IsVisible
  omega

theorem isVisible_of_toLower {c : Char} (h : IsVisible c.toLower) : IsVisible c := by
  unfold Char.toLower at h
  split at h
  · next hcapital =>
    simp only [ge_iff_le, UInt32.le_iff_toNat_le] at hcapital
    have hbounds : 'A'.val.toNat = 0x41 ∧ 'Z'.val.toNat = 0x5A := ⟨rfl, rfl⟩
    have hvalue : c.toNat = c.val.toNat := rfl
    unfold IsVisible
    omega
  · exact h

end Text

/-! ## Decimal numbers

A number is read as a sign, a whole part, a fraction and a power, and each of these has characters
of its own. What is left over is refused, so a text that is read has no other characters. -/

namespace Decimal

open Text

theorem mem_splitSign {text : List Char} {c : Char} (h : c ∈ text) :
    c = '-' ∨ c = '+' ∨ c ∈ (splitSign text).2 := by
  unfold splitSign
  split
  · exact (List.mem_cons.mp h).imp_right .inr
  · exact .inr (List.mem_cons.mp h)
  · exact .inr (.inr h)

theorem isVisible_of_splitSign {text : List Char}
    (h : ∀ c ∈ (splitSign text).2, IsVisible c) : ∀ c ∈ text, IsVisible c := by
  intro c hc
  obtain rfl | rfl | hc := mem_splitSign hc
  · decide
  · decide
  · exact h c hc

theorem isVisible_of_readPower {text : List Char} {n : Int} (h : readPower text = some n) :
    ∀ c ∈ text, IsVisible c := by
  cases text with
  | nil => exact fun c hc ↦ absurd hc List.not_mem_nil
  | cons mark rest =>
    rw [readPower] at h
    split at h
    · next hmark =>
      split at h
      next negative digits hsplit =>
      split at h
      · next hdigits =>
        have hrest : ∀ c ∈ rest, IsVisible c := by
          refine isVisible_of_splitSign fun c hc ↦ ?_
          rw [hsplit] at hc
          exact isVisible_of_isDigit (List.all_eq_true.mp hdigits.2 c hc)
        rw [List.forall_mem_cons]
        refine ⟨?_, hrest⟩
        obtain rfl | rfl := hmark <;> decide
      · contradiction
    · contradiction

theorem isVisible_of_dropWhile {text : List Char}
    (h : ∀ c ∈ text.dropWhile Char.isDigit, IsVisible c) : ∀ c ∈ text, IsVisible c := by
  intro c hc
  rw [← List.takeWhile_append_dropWhile (p := Char.isDigit) (l := text), List.mem_append] at hc
  obtain hc | hc := hc
  · exact isVisible_of_isDigit (List.mem_takeWhile_imp hc)
  · exact h c hc

theorem isVisible_of_read? {text : List Char} {d : Decimal} (h : read? text = some d) :
    ∀ c ∈ text, IsVisible c := by
  unfold read? at h
  dsimp only at h
  refine isVisible_of_splitSign (isVisible_of_dropWhile ?_)
  split at h
  · next behind hbehind =>
    split at h
    · contradiction
    · obtain ⟨power, hpower, -⟩ := Option.map_eq_some_iff.mp h
      rw [hbehind, List.forall_mem_cons]
      exact ⟨by decide, isVisible_of_dropWhile (isVisible_of_readPower hpower)⟩
  · split at h
    · contradiction
    · obtain ⟨power, hpower, -⟩ := Option.map_eq_some_iff.mp h
      exact isVisible_of_readPower hpower

end Decimal

end BarBridge
