import BarBridge.Proofs.Json.Numerals
import BarBridge.Proofs.Module.Scheduling
import BarBridge.Proofs.Number.Integers
import Mathlib.Data.Nat.Digits.Defs

/-!
# Intervals that are integers

An interval can be stated as an integer, by itself or as the digits of the integer between blanks.
The two are read by different readers, and meet where either has become a double-precision number
(`Decimal.toBinary64_ofInt`). From there on they are the same interval, and what can be lost of the
integer has been lost by then: nothing up to 53 binary digits, and the last one or two digits of a
longer number, since numbers of that size are two or four apart in double precision
(`resolve_integer`). Beyond the limit on intervals it no longer matters.
-/

namespace BarBridge

/-! ## The digits of an integer -/

namespace Decimal

/-- An integer as a decimal number. -/
def ofInt (n : ℤ) : Decimal :=
  ⟨decide (n < 0), n.natAbs, 0⟩

theorem splitSign_of_isDigit {c : Char} (h : c.isDigit = true) (cs : List Char) :
    splitSign (c :: cs) = (false, c :: cs) := by
  unfold splitSign
  split
  · next heq =>
    rw [List.cons.injEq] at heq
    rw [heq.1] at h
    contradiction
  · next heq =>
    rw [List.cons.injEq] at heq
    rw [heq.1] at h
    contradiction
  · rfl

theorem read?_of_splitSign {text digits : List Char} {negative : Bool}
    (hsign : splitSign text = (negative, digits)) (hne : digits ≠ [])
    (hdigits : ∀ c ∈ digits, c.isDigit = true) :
    read? text = some ⟨negative, ofDigits 0 digits, 0⟩ := by
  have hfront : digits.takeWhile Char.isDigit = digits := List.takeWhile_eq_self_iff.mpr hdigits
  have hrest : digits.dropWhile Char.isDigit = [] := List.dropWhile_eq_nil_iff.mpr hdigits
  rw [read?, hsign]
  dsimp only
  rw [hfront, hrest]
  dsimp only
  rw [if_neg (fun h ↦ hne h.1)]
  rfl

theorem ofDigits_toDigits (n : ℕ) : ofDigits 0 (Nat.toDigits 10 n) = n := by
  have hfold := Json.foldl_digitOf_toDigits n
  rw [List.foldl_map] at hfold
  exact hfold

theorem read?_toDigits (k : ℕ) : read? (Nat.toDigits 10 k) = some ⟨false, k, 0⟩ := by
  obtain ⟨c, cs, hcs⟩ := List.exists_cons_of_ne_nil (Nat.toDigits_ne_nil (b := 10) (n := k))
  have hc : c.isDigit = true :=
    Json.isDigit_of_mem_toDigits (n := k) (by rw [hcs]; exact List.mem_cons_self)
  have hsign : splitSign (Nat.toDigits 10 k) = (false, Nat.toDigits 10 k) := by
    rw [hcs, splitSign_of_isDigit hc]
  rw [read?_of_splitSign hsign Nat.toDigits_ne_nil fun d ↦ Json.isDigit_of_mem_toDigits,
    ofDigits_toDigits]

theorem read?_minus_toDigits (k : ℕ) : read? ('-' :: Nat.toDigits 10 k) = some ⟨true, k, 0⟩ := by
  have hsign : splitSign ('-' :: Nat.toDigits 10 k) = (true, Nat.toDigits 10 k) := rfl
  rw [read?_of_splitSign hsign Nat.toDigits_ne_nil fun d ↦ Json.isDigit_of_mem_toDigits,
    ofDigits_toDigits]

/-- **An integer is read from its digits.** -/
theorem read?_toString (n : ℤ) : read? (toString n).toList = some (ofInt n) := by
  cases n with
  | ofNat k =>
    have hread := read?_toDigits k
    rw [← Json.toList_toString_natCast] at hread
    have hsign : decide (Int.ofNat k < 0) = false :=
      decide_eq_false (not_lt.mpr (Int.natCast_nonneg k))
    rw [ofInt, hsign]
    exact hread
  | negSucc k =>
    have hsign : decide (Int.negSucc k < 0) = true := decide_eq_true (Int.negSucc_lt_zero k)
    rw [Json.toList_toString_negSucc, read?_minus_toDigits, ofInt, hsign]
    rfl

theorem toBinary64_ofInt {n : ℤ} (h : n.natAbs < 2 ^ 64) :
    (ofInt n).toBinary64 = Binary64.ofInt n := by
  have hlength : (Nat.repr n.natAbs).length ≤ 20 :=
    Nat.repr_length n.natAbs 20 (by decide) (by omega)
  have hreach : (ofInt n).reach = (Nat.repr n.natAbs).length := zero_add _
  have hfits : ¬310 < (ofInt n).reach := by omega
  have hlarge : ¬(ofInt n).reach < -330 := by omega
  have hone : Nat.pow 10 (ofInt n).exponent.toNat = 1 ∧ Nat.pow 10 (-(ofInt n).exponent).toNat = 1 :=
    ⟨rfl, rfl⟩
  have hdigits : (ofInt n).digits = n.natAbs := rfl
  rw [toBinary64, Binary64.ofInt, if_neg hfits, if_neg hlarge, hone.1, hone.2,
    Nat.mul_one, hdigits]
  split
  · next hzero =>
    rw [Binary64.ofRatio, if_pos hzero]
    rfl
  · rfl

theorem exists_isDigit_mem_toString (n : ℤ) : ∃ c ∈ (toString n).toList, c.isDigit = true := by
  have hdigit : ∀ k : ℕ, ∃ c ∈ Nat.toDigits 10 k, c.isDigit = true := by
    intro k
    obtain ⟨c, hc⟩ := List.exists_mem_of_ne_nil _ (Nat.toDigits_ne_nil (b := 10) (n := k))
    exact ⟨c, hc, Json.isDigit_of_mem_toDigits hc⟩
  cases n with
  | ofNat k =>
    have htext : (toString (Int.ofNat k)).toList = Nat.toDigits 10 k :=
      Json.toList_toString_natCast k
    rw [htext]
    exact hdigit k
  | negSucc k =>
    obtain ⟨c, hc, hisDigit⟩ := hdigit (k + 1)
    rw [Json.toList_toString_negSucc]
    exact ⟨c, List.mem_cons_of_mem _ hc, hisDigit⟩

end Decimal

theorem Text.toLower_of_isDigit {c : Char} (h : c.isDigit = true) : c.toLower = c := by
  have hbounds : '9'.val.toNat = 57 ∧ 'A'.val.toNat = 65 := ⟨rfl, rfl⟩
  simp only [Char.isDigit, Bool.and_eq_true, decide_eq_true_eq, UInt32.le_iff_toNat_le] at h
  unfold Char.toLower
  rw [dif_neg]
  simp only [ge_iff_le, UInt32.le_iff_toNat_le]
  omega

/-! ## The interval of an integer

Rounding comes before the cap and could bring a number from beyond the limit back below it. It does
not (`secondsLimit_le_of_holdsAs`), and so beyond the limit nothing is lost by it. -/

namespace Interval

section

variable {n : ℤ} {s : String}

theorem not_saysOnce_toString (h : Text.Pads s.toList (toString n).toList) :
    ¬(Json.string s).SaysOnce := by
  have hblank := fun c hc ↦ (Decimal.isVisible_of_read? (Decimal.read?_toString n) c hc).isBlank
  rw [Json.saysOnce_iff, isOnce, h.trim_eq hblank, beq_iff_eq]
  intro honce
  obtain ⟨c, hc, hdigit⟩ := Decimal.exists_isDigit_mem_toString n
  have hmem : c ∈ ['o', 'n', 'c', 'e'] := by
    rw [← honce, ← Text.toLower_of_isDigit hdigit]
    exact List.mem_map_of_mem hc
  have hletters : ['o', 'n', 'c', 'e'].all (fun d ↦ !d.isDigit) = true := by decide
  have hletter := List.all_eq_true.mp hletters c hmem
  rw [hdigit] at hletter
  contradiction

theorem resolve_eq_ofNumber {v : Json} {x : Binary64} (hword : ¬v.SaysOnce) (hgives : v.Gives x)
    (default : UInt64) : resolve (some v) default = ofNumber x := by
  rw [resolve, if_neg (mt (Json.saysOnce_iff v).mpr hword), (Json.gives_iff v x).mp hgives]

end

end Interval

theorem secondsLimit_le_of_holdsAs {n r : ℕ} (h : Binary64.HoldsAs n r) (hn : secondsLimit ≤ n) :
    secondsLimit ≤ r := by
  have hlimit : secondsLimit = 18446744073709551 := rfl
  have hbounds := h.bounds
  obtain hshort | hlong := lt_or_ge n (2 ^ 55)
  · -- Here numbers are four apart, and the limit is one less than such a number.
    have hspacing : Binary64.spacing n = 4 := Binary64.spacing_eq (k := 2) (by omega) (by omega)
    obtain ⟨q, rfl, -⟩ := h
    rw [hspacing] at hbounds ⊢
    omega
  · have hspacing := Binary64.mul_spacing_le (n := n) (by omega)
    omega

/-- What the cap makes of a rounded number is what it makes of the number, where nothing is lost or
the number is beyond the limit. -/
theorem min_eq_min_iff_of_holdsAs {n r : ℕ} (h : Binary64.HoldsAs n r) :
    min r secondsLimit = min n secondsLimit ↔
      n ≤ 2 ^ 53 ∨ n ≤ 2 ^ 54 ∧ 2 ∣ n ∨ 4 ∣ n ∨ secondsLimit ≤ n := by
  obtain hbeyond | hwithin := le_or_gt secondsLimit n
  · rw [Nat.min_eq_right hbeyond, Nat.min_eq_right (secondsLimit_le_of_holdsAs h hbeyond)]
    exact iff_of_true rfl (.inr (.inr (.inr hbeyond)))
  · have hlimit : secondsLimit = 18446744073709551 := rfl
    have hlost := h.eq_iff_of_lt (by omega)
    omega

/-- **An integer and its digits state the same interval.** Up to zero it is a stream. Above zero it
is polled for in as many seconds as the integer is taken for in double precision, held at the limit;
these are the integer itself, or the limit, exactly if it has no more than 53 binary digits, or has
zeros behind them, or is beyond the limit anyhow. -/
theorem resolve_integer {n : ℤ} (hlow : -2 ^ 63 ≤ n) (hhigh : n < 2 ^ 64) {s : String}
    (hs : Text.Pads s.toList (toString n).toList) (default : UInt64) :
    let i := Interval.resolve (some (.number (.int n))) default
    Interval.resolve (some (.string s)) default = i ∧
      (n ≤ 0 → i = .once) ∧
      (0 < n → ∃ seconds r, i = .poll seconds .stated ∧ Binary64.HoldsAs n.toNat r ∧
        seconds.toNat = min r secondsLimit ∧
        (seconds.toNat = min n.toNat secondsLimit ↔
          n ≤ 2 ^ 53 ∨ n ≤ 2 ^ 54 ∧ 2 ∣ n ∨ 4 ∣ n ∨ secondsLimit ≤ n.toNat)) := by
  intro i
  have habs : n.natAbs < 2 ^ 64 := by omega
  obtain ⟨x, hx, hstream, hpoll⟩ := Binary64.exists_ofInt habs
  have hnumber : (Json.number (.int n)).Gives x := .number hx
  have hword : ¬(Json.number (.int n)).SaysOnce := by
    rw [Json.saysOnce_iff]
    exact Bool.false_ne_true
  have hstring : (Json.string s).Gives x := by
    refine .string hs (Decimal.read?_toString n) ?_
    rw [Decimal.toBinary64_ofInt habs, hx]
  refine ⟨?_, ?_, ?_⟩
  · rw [Interval.resolve_eq_ofNumber (Interval.not_saysOnce_toString hs) hstring]
    exact (Interval.resolve_eq_ofNumber hword hnumber default).symm
  · intro hle
    exact Interval.resolve_of_asksForStream (.inr ⟨x, hnumber, hstream hle⟩) default
  · intro hpos
    obtain ⟨r, htruncate, hholds⟩ := hpoll hpos
    have hr : 0 < r := hholds.pos (by omega)
    have hseconds : (capSeconds r).toNat = min r secondsLimit := toNat_capSeconds r
    refine ⟨capSeconds r, r, ?_, hholds, hseconds, ?_⟩
    · have hresolve := Interval.resolve_of_gives hword hnumber (by omega) default
      rwa [htruncate, Int.toNat_natCast] at hresolve
    · rw [hseconds, min_eq_min_iff_of_holdsAs hholds]
      omega

/-- Beyond 53 digits, an even number of seconds is taken as it is stated. -/
theorem resolve_integer_even :
    let digits := " 9007199254740994\n"
    Text.Pads digits.toList (toString (9007199254740994 : ℤ)).toList ∧
      Interval.resolve (some (.number (.int 9007199254740994))) 60 =
        .poll 9007199254740994 .stated ∧
      Interval.resolve (some (.string digits)) 60 = .poll 9007199254740994 .stated := by
  intro digits
  have hpads : Text.Pads digits.toList (toString (9007199254740994 : ℤ)).toList :=
    ⟨[' '], ['\n'], by decide +kernel, List.forall_mem_singleton.mpr (by decide),
      List.forall_mem_singleton.mpr (by decide)⟩
  obtain ⟨hdigits, -, hpoll⟩ := resolve_integer (by norm_num) (by norm_num) hpads 60
  obtain ⟨seconds, r, hinterval, -, -, hexact⟩ := hpoll (by norm_num)
  have htoNat : seconds.toNat = 9007199254740994 := hexact.mpr (.inr (.inl (by norm_num)))
  obtain rfl : seconds = 9007199254740994 := UInt64.toNat_inj.mp htoNat
  exact ⟨hpads, hinterval, hdigits.trans hinterval⟩

/-- The odd number before it is not, though it is within the limit. -/
theorem integer_interval_not_exact :
    Interval.resolve (some (.number (.int 9007199254740993))) 60 =
        .poll 9007199254740992 .stated ∧
      Interval.resolve (some (.string "9007199254740993")) 60 = .poll 9007199254740992 .stated ∧
      9007199254740993 ≤ secondsLimit := by
  exact ⟨by decide +kernel, by decide +kernel, by decide⟩

end BarBridge
