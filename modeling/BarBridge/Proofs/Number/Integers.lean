import BarBridge.Proofs.Number.Truncation

/-!
# Integers in double precision

A double-precision number has 53 binary digits. An integer of more than 53 keeps the first ones, so
it can be had only if it is a multiple of a power of two, and is taken for the nearest such multiple
otherwise. `spacing n` is this power for an integer of the length of `n`, and `HoldsAs n r` says that
`r` is what `n` is taken for. The rounding itself is said by `IsNearest`, without division: a
quotient is at most one half away, and a tie has gone to the even number.

Up to `2 ^ 53` the spacing is one or divides the integer, and nothing is lost (`HoldsAs.eq_iff`).
-/

namespace BarBridge

theorem truncate_natCast (n : ℕ) : truncate n = n := by
  rw [truncate, if_pos (Nat.cast_nonneg n), Int.floor_natCast]

namespace Binary64

/-! ## Rounding a quotient -/

/-- A natural number nearest to a quotient, and the even one where two are. -/
structure IsNearest (num den q : ℕ) : Prop where
  le : 2 * num ≤ 2 * (q * den) + den
  ge : 2 * (q * den) ≤ 2 * num + den
  even : 2 * num = 2 * (q * den) + den ∨ 2 * (q * den) = 2 * num + den → q % 2 = 0

theorem isNearest_divNearest (num : ℕ) {den : ℕ} (h : 0 < den) :
    IsNearest num den (divNearest num den) := by
  have hsplit : num / den * den + num % den = num := Nat.div_add_mod' num den
  have hrest : num % den < den := Nat.mod_lt num h
  unfold divNearest
  dsimp only
  split
  · next hup =>
    have hnext : (num / den + 1) * den = num / den * den + den := Nat.succ_mul _ _
    constructor <;> rw [hnext] <;> omega
  · next hdown => constructor <;> omega

theorem divNearest_one (n : ℕ) : divNearest n 1 = n := by
  have h := isNearest_divNearest n one_pos
  have hle := h.le
  have hge := h.ge
  omega

/-- What a quotient becomes, where it is in range. A rounding up to the next power of two moves the
point and not the number. -/
theorem exists_ofRatio {num den : ℕ} (negative : Bool) (hnum : num ≠ 0) {e : ℤ}
    (he : max (binade num den - 52) leastExponent = e) (hrange : e < greatestExponent) :
    ∃ x, ofRatio negative num den = some x ∧ x.negative = negative ∧
      x.magnitude = divNearest (scaleBinary num den e).1 (scaleBinary num den e).2 * 2 ^ e := by
  unfold ofRatio
  rw [if_neg hnum, he]
  dsimp only
  split
  · next hfull =>
    rw [if_pos (Int.add_one_le_of_lt hrange)]
    refine ⟨_, rfl, rfl, ?_⟩
    have hlimit : (significandLimit : ℚ) = leastFull * 2 := by norm_num [significandLimit, leastFull]
    rw [hfull, hlimit, magnitude, zpow_add_one₀ two_ne_zero]
    ring
  · rw [if_pos hrange.le]
    exact ⟨_, rfl, rfl, rfl⟩

/-! ## Natural numbers and integers -/

/-- The distance between neighbouring double-precision numbers of the length of a natural number,
or one where it is smaller. -/
def spacing (n : ℕ) : ℕ :=
  2 ^ (n.log2 - 52)

/-- What a natural number is taken for in double precision. -/
def HoldsAs (n r : ℕ) : Prop :=
  ∃ q, r = q * spacing n ∧ IsNearest n (spacing n) q

theorem spacing_pos (n : ℕ) : 0 < spacing n :=
  Nat.two_pow_pos _

theorem binade_natural {n : ℕ} (hn : n ≠ 0) : binade n 1 = n.log2 := by
  have hlog : Nat.log2 1 = 0 := rfl
  have hfits : 1 * Nat.pow 2 n.log2 ≤ n * Nat.pow 2 (-(n.log2 : ℤ)).toNat := by
    rw [Int.toNat_neg_natCast, one_mul]
    exact (Nat.log2_self_le hn).trans (Nat.mul_one n).ge
  rw [binade, hlog]
  dsimp only [scaleBinary]
  rw [Nat.cast_zero, sub_zero, Int.toNat_natCast, if_pos hfits]

theorem divNearest_scaleBinary (n : ℕ) :
    (divNearest (scaleBinary n 1 (n.log2 - 52)).1 (scaleBinary n 1 (n.log2 - 52)).2 : ℚ) *
        2 ^ ((n.log2 : ℤ) - 52) =
      (divNearest n (spacing n) * spacing n : ℕ) := by
  rw [scaleBinary, spacing, Nat.pow_eq, Nat.pow_eq, one_mul]
  obtain hlong | hshort := le_total 52 n.log2
  · have he : (n.log2 : ℤ) - 52 = (n.log2 - 52 : ℕ) := by omega
    rw [he, Int.toNat_neg_natCast, Int.toNat_natCast, pow_zero, mul_one, zpow_natCast]
    push_cast
    rfl
  · have he : (n.log2 : ℤ) - 52 = -(52 - n.log2 : ℕ) := by omega
    have hpower : (2 : ℚ) ^ (52 - n.log2) ≠ 0 := pow_ne_zero _ two_ne_zero
    rw [he, neg_neg, Int.toNat_neg_natCast, Int.toNat_natCast, Nat.sub_eq_zero_of_le hshort,
      pow_zero, divNearest_one, divNearest_one, zpow_neg, zpow_natCast, mul_one]
    push_cast
    field_simp

/-- **A natural number is rounded once.** -/
theorem exists_ofRatio_natural {n : ℕ} (negative : Bool) (hn : n ≠ 0) (hrange : n.log2 < 1023) :
    ∃ x r, ofRatio negative n 1 = some x ∧ x.negative = negative ∧ x.magnitude = (r : ℕ) ∧
      HoldsAs n r := by
  have he : max (binade n 1 - 52) leastExponent = (n.log2 : ℤ) - 52 := by
    rw [binade_natural hn, leastExponent]
    omega
  obtain ⟨x, hx, hnegative, hmagnitude⟩ :=
    exists_ofRatio negative hn he (by rw [greatestExponent]; omega)
  rw [divNearest_scaleBinary] at hmagnitude
  exact ⟨x, _, hx, hnegative, hmagnitude, _, rfl, isNearest_divNearest n (spacing_pos n)⟩

theorem value_zero : (zero false).value = 0 := by
  simp [value, magnitude, zero]

theorem exists_ofInt {n : ℤ} (h : n.natAbs < 2 ^ 64) :
    ∃ x, ofInt n = some x ∧ (n ≤ 0 → truncate x.value ≤ 0) ∧
      (0 < n → ∃ r : ℕ, truncate x.value = r ∧ HoldsAs n.toNat r) := by
  obtain rfl | hn := eq_or_ne n 0
  · refine ⟨zero false, rfl, fun _ ↦ ?_, fun hpos ↦ absurd hpos (lt_irrefl 0)⟩
    rw [value_zero, truncate_le_zero_iff]
    exact one_pos
  · have hne : n.natAbs ≠ 0 := Int.natAbs_ne_zero.mpr hn
    have hlog : n.natAbs.log2 < 64 := (Nat.log2_lt hne).mpr h
    obtain ⟨x, r, hx, hnegative, hmagnitude, hholds⟩ :=
      exists_ofRatio_natural (decide (n < 0)) hne (by omega)
    refine ⟨x, hx, fun hle ↦ ?_, fun hpos ↦ ⟨r, ?_, ?_⟩⟩
    · have hlt : n < 0 := lt_of_le_of_ne hle hn
      rw [truncate_value_le_zero_iff, hnegative, decide_eq_true hlt]
      rfl
    · rw [value, hnegative, decide_eq_false (not_lt.mpr hpos.le), if_neg Bool.false_ne_true,
        hmagnitude, truncate_natCast]
    · have habs : n.toNat = n.natAbs := by omega
      rwa [habs]

/-! ## What is lost

Up to 55 binary digits the spacing is one, two or four. A number is held as it is if the spacing
divides it, so what matters is how many zeros it has at its end. -/

theorem spacing_eq {n k : ℕ} (hlow : 2 ^ (52 + k) ≤ n) (hhigh : n < 2 ^ (53 + k)) :
    spacing n = 2 ^ k := by
  have hn : n ≠ 0 := (Nat.two_pow_pos _).trans_le hlow |>.ne'
  have hlog : n.log2 = 52 + k := by
    rw [Nat.log2_eq_iff hn]
    exact ⟨hlow, by rwa [Nat.add_right_comm]⟩
  rw [spacing, hlog, Nat.add_sub_cancel_left]

theorem spacing_eq_one {n : ℕ} (h : n < 2 ^ 53) : spacing n = 1 := by
  obtain rfl | hn := eq_or_ne n 0
  · rfl
  · have hlog : n.log2 < 53 := (Nat.log2_lt hn).mpr h
    rw [spacing, Nat.sub_eq_zero_of_le (by omega), pow_zero]

theorem mul_spacing_le {n : ℕ} (h : 2 ^ 52 ≤ n) : 2 ^ 52 * spacing n ≤ n := by
  have hn : n ≠ 0 := (Nat.two_pow_pos _).trans_le h |>.ne'
  have hlog : 52 ≤ n.log2 := (Nat.le_log2 hn).mpr h
  rw [spacing, ← pow_add, Nat.add_sub_cancel' hlog]
  exact Nat.log2_self_le hn

theorem spacing_le {n : ℕ} (hn : n ≠ 0) : spacing n ≤ n :=
  (Nat.pow_le_pow_right two_pos (Nat.sub_le _ _)).trans (Nat.log2_self_le hn)

namespace HoldsAs

variable {n r : ℕ}

theorem bounds (h : HoldsAs n r) : 2 * n ≤ 2 * r + spacing n ∧ 2 * r ≤ 2 * n + spacing n := by
  obtain ⟨q, rfl, hnearest⟩ := h
  exact ⟨hnearest.le, hnearest.ge⟩

theorem pos (h : HoldsAs n r) (hn : 0 < n) : 0 < r := by
  have hbounds := h.bounds
  have hspacing := spacing_le hn.ne'
  omega

/-- **What is not lost**: the multiples of the spacing. -/
theorem eq_iff (h : HoldsAs n r) : r = n ↔ spacing n ∣ n := by
  obtain ⟨q, rfl, hnearest⟩ := h
  constructor
  · exact Dvd.intro_left q
  · rintro ⟨c, hc⟩
    have hle := hnearest.le
    have hge := hnearest.ge
    have hn : n = c * spacing n := by rw [Nat.mul_comm, ← hc]
    have hpos := spacing_pos n
    -- Different multiples are a whole spacing apart.
    obtain hlt | heq | hgt := lt_trichotomy q c
    · have hstep : (q + 1) * spacing n ≤ c * spacing n := Nat.mul_le_mul_right _ hlt
      rw [Nat.succ_mul] at hstep
      omega
    · rw [heq, ← hn]
    · have hstep : (c + 1) * spacing n ≤ q * spacing n := Nat.mul_le_mul_right _ hgt
      rw [Nat.succ_mul] at hstep
      omega

/-- A number of 53 digits, or with zeros behind the first 53, is held as it is. -/
theorem eq_iff_of_lt (h : HoldsAs n r) (hn : n < 2 ^ 55) :
    r = n ↔ n ≤ 2 ^ 53 ∨ n ≤ 2 ^ 54 ∧ 2 ∣ n ∨ 4 ∣ n := by
  rw [h.eq_iff]
  obtain hshort | hlong := lt_or_ge n (2 ^ 53)
  · rw [spacing_eq_one hshort]
    omega
  · obtain hshort | hlong := lt_or_ge n (2 ^ 54)
    · rw [spacing_eq (k := 1) (by omega) (by omega)]
      omega
    · rw [spacing_eq (k := 2) (by omega) (by omega)]
      omega

end HoldsAs

end Binary64

end BarBridge
