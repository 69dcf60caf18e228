import BarBridge.Json.Writer
import BarBridge.Proofs.Json.Spelling

/-!
# The numeral of an integer

An integer is written with the digits of its magnitude, the first of which is no zero but in zero
itself. So the numeral has neither a leading zero nor a point nor a power, and as long as its digits
fit 64 bits it is read as the integer it was written for (`spellsScalar_int`).
-/

namespace BarBridge.Json

/-- The digit that a character stands for. -/
def digitOf (c : Char) : Nat :=
  c.toNat - '0'.toNat

/-! ## Digits -/

theorem isDigit_of_mem_toDigits {n : Nat} {c : Char} (h : c ∈ Nat.toDigits 10 n) :
    c.isDigit = true :=
  Nat.isDigit_of_mem_toDigits (by decide) (by decide) h

theorem foldl_digitOf_toDigits (n : Nat) :
    ((Nat.toDigits 10 n).map digitOf).foldl (fun a d ↦ 10 * a + d) 0 = n := by
  rw [List.foldl_map]
  exact (Nat.ofDigitChars_eq_foldl.symm.trans Nat.ofDigitChars_ten_toDigits)

theorem exists_toDigits_eq_cons {n : Nat} (hn : 0 < n) :
    ∃ c cs, Nat.toDigits 10 n = c :: cs ∧ digitOf c ≠ 0 := by
  by_cases hsmall : n < 10
  · refine ⟨n.digitChar, [], Nat.toDigits_of_lt_base hsmall, ?_⟩
    have hdigit : digitOf n.digitChar = n := Nat.toNat_digitChar_sub_48_of_lt_ten hsmall
    omega
  · obtain ⟨c, cs, hcs, hc⟩ := exists_toDigits_eq_cons (n := n / 10) (by omega)
    refine ⟨c, cs ++ [(n % 10).digitChar], ?_, hc⟩
    rw [Nat.toDigits_of_base_le (by decide) (by omega), hcs]
    rfl

/-! ## Digits behind a sign -/

theorem toList_toString_natCast (n : Nat) : (toString (n : Int)).toList = Nat.toDigits 10 n :=
  Nat.toList_repr

theorem toList_toString_negSucc (n : Nat) :
    (toString (Int.negSucc n)).toList = '-' :: Nat.toDigits 10 (n + 1) := by
  have hsign : toString (Int.negSucc n) = "-" ++ (n + 1).repr := rfl
  rw [hsign, String.toList_append, Nat.toList_repr]
  rfl

theorem eq_minus_or_isDigit {n : Int} {c : Char} (h : c ∈ (toString n).toList) :
    c = '-' ∨ c.isDigit = true := by
  cases n with
  | ofNat n =>
    have htext : (toString (Int.ofNat n)).toList = Nat.toDigits 10 n := toList_toString_natCast n
    rw [htext] at h
    exact .inr (isDigit_of_mem_toDigits h)
  | negSucc n =>
    rw [toList_toString_negSucc, List.mem_cons] at h
    exact h.imp_right isDigit_of_mem_toDigits

/-! ## The numeral

Whole digits are taken as long as the number that they make fits 64 bits. This number only grows, so
if all of it fits no digit is left over. -/

theorem next_whole {c : Char} (h : c.isDigit = true) (p : Draft) :
    Stage.next .whole p c = some (.whole, { p with whole := digitOf c :: p.whole }) := by
  unfold Stage.next
  rw [if_pos h]
  rfl

theorem finish?_whole {w : List Char} (h : ∀ c ∈ w, c.isDigit = true) (p : Draft) :
    Stage.whole.finish? p w =
      some ({ p with whole := (w.map digitOf).reverse ++ p.whole }.finish .whole) := by
  induction w generalizing p with
  | nil => rfl
  | cons c w ih =>
    have hrest : ∀ d ∈ w, d.isDigit = true := fun d hd ↦ h d (List.mem_cons_of_mem c hd)
    rw [Stage.finish?_cons (next_whole (h c List.mem_cons_self) p), ih hrest]
    simp

theorem next_sign {c : Char} (h : c.isDigit = true) (hc : digitOf c ≠ 0) (p : Draft) :
    Stage.next .sign p c = some (.whole, { p with whole := [digitOf c] }) := by
  unfold Stage.next
  rw [if_pos h]
  exact if_neg hc

theorem finish?_toDigits (negative : Bool) (n : Nat) :
    Stage.sign.finish? (.begin negative) (Nat.toDigits 10 n) =
      some ⟨negative, (Nat.toDigits 10 n).map digitOf, [], none⟩ := by
  rcases Nat.eq_zero_or_pos n with rfl | hn
  · rfl
  · -- Behind a first digit that is no zero, all digits are of the whole part.
    obtain ⟨c, cs, hcs, hc⟩ := exists_toDigits_eq_cons hn
    have hdigits : ∀ d ∈ c :: cs, d.isDigit = true := by
      intro d hd
      rw [← hcs] at hd
      exact isDigit_of_mem_toDigits hd
    rw [hcs, Stage.finish?_cons (next_sign (hdigits c List.mem_cons_self) hc _),
      finish?_whole fun d hd ↦ hdigits d (List.mem_cons_of_mem c hd)]
    simp [Draft.finish, Draft.begin]

namespace Numeral

theorem le_foldl_digits (digits : List Nat) (s : Nat) :
    s ≤ digits.foldl (fun a d ↦ 10 * a + d) s := by
  induction digits generalizing s with
  | nil => exact Nat.le_refl s
  | cons d digits ih =>
    have hrest := ih (10 * s + d)
    rw [List.foldl_cons]
    omega

theorem takeWhole_eq {digits : List Nat} {s : Nat}
    (h : digits.foldl (fun a d ↦ 10 * a + d) s ≤ wordMax) :
    takeWhole s digits = (digits.foldl (fun a d ↦ 10 * a + d) s, 0) := by
  induction digits generalizing s with
  | nil => rfl
  | cons d digits ih =>
    rw [List.foldl_cons] at h ⊢
    have hfits : 10 * s + d ≤ wordMax := Nat.le_trans (le_foldl_digits digits _) h
    rw [takeWhole, if_pos hfits, ih h]

theorem integer?_toDigits (negative : Bool) {n : Nat} (hn : n ≤ wordMax) :
    integer? ⟨negative, (Nat.toDigits 10 n).map digitOf, [], none⟩ =
      if negative then
        if 1 ≤ n ∧ n ≤ 9223372036854775808 then some (-(n : Int)) else none
      else some (n : Int) := by
  have htake : takeWhole 0 ((Nat.toDigits 10 n).map digitOf) = (n, 0) := by
    rw [takeWhole_eq (by rwa [foldl_digitOf_toDigits]), foldl_digitOf_toDigits]
  rw [integer?, htake]
  rfl

end Numeral

/-- **An integer of 64 bits is read back.** -/
theorem spellsScalar_int {i : Int} (hlow : -9223372036854775808 ≤ i) (hhigh : i < UInt64.size) :
    SpellsScalar (Number.int i).write (.number (.int i)) := by
  have hsize : UInt64.size = 18446744073709551616 := rfl
  have hmax : Numeral.wordMax = 18446744073709551615 := rfl
  have hdigits : Layout.digitsOf i.natAbs = Nat.toDigits 10 i.natAbs := Nat.toList_repr
  rw [Number.write, hdigits]
  split
  · next hneg =>
    refine .negative (finish?_toDigits true i.natAbs) ?_
    -- The magnitude of the least integer is one more than that of the greatest.
    have hrange : 1 ≤ i.natAbs ∧ i.natAbs ≤ 9223372036854775808 := by omega
    have hvalue : -(i.natAbs : Int) = i := by omega
    rw [Numeral.value, Numeral.integer?_toDigits true (by omega), if_pos rfl, if_pos hrange, hvalue]
  · next hneg =>
    refine .positive (finish?_toDigits false i.natAbs) ?_
    have hvalue : (i.natAbs : Int) = i := by omega
    rw [Numeral.value, Numeral.integer?_toDigits false (by omega), if_neg (by decide), hvalue]

end BarBridge.Json
