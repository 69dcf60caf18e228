import BarBridge.Proofs.Text.Boundaries

/-!
# Windows

The part of a text that is shown around a fault is cut out of its bytes, from `radius` bytes before
an offset to `radius` bytes behind it, with both bounds rounded down to a boundary. Cutting is where
this can go wrong: bounds out of order, behind the end or inside a character leave nothing that
could be cut. `IsWindow` says that none of this happens and that enough is shown, in terms of the
bytes of the text alone.

## Rounding down

Rounding keeps the order of two numbers and never passes the end of the text, so the bounds can
always be cut at. It loses less than one character at either end. At the front the loss makes the
window longer, by three bytes at most, since a character has no more than four. At the back it makes
the window shorter, but only by a character that reaches beyond the radius.

## Sums of 64-bit numbers

An offset and a radius may be any 64-bit numbers, and their sum need not be one. It is cut off at
the greatest 64-bit number then, which no text in memory is long enough to reach, so both sums are
rounded to the end of the text.
-/

namespace BarBridge.Text

variable {text : List Char} {n : Nat}

/-! ## What rounding loses -/

theorem floorBoundary_of_byteCount_le (h : byteCount text ≤ n) :
    floorBoundary text n = byteCount text :=
  le_antisymm (isBoundary_floorBoundary text n).le_byteCount
    (le_floorBoundary ⟨text, List.prefix_refl text, rfl⟩ h)

theorem floorBoundary_min {limit : Nat} (h : byteCount text ≤ limit) :
    floorBoundary text (min n limit) = floorBoundary text n := by
  rcases Nat.le_total n limit with hn | hn
  · rw [Nat.min_eq_left hn]
  · rw [Nat.min_eq_right hn, floorBoundary_of_byteCount_le h,
      floorBoundary_of_byteCount_le (le_trans h hn)]

theorem min_le_floorBoundary_add_three (text : List Char) (n : Nat) :
    min n (byteCount text) ≤ floorBoundary text n + 3 := by
  obtain ⟨rest, hrest⟩ := takeBytes_isPrefix n text
  rcases rest with _ | ⟨c, rest⟩
  · rw [List.append_nil] at hrest
    rw [floorBoundary, hrest]
    omega
  · by_contra hlost
    -- The next character would fit too, and would end at a greater boundary.
    have hnext := isBoundary_behind (takeBytes n text) c rest
    rw [hrest] at hnext
    have hfits : byteCount (takeBytes n text) + c.utf8Size ≤ n := by
      have := c.utf8Size_le_four
      rw [floorBoundary] at hlost
      omega
    have hle := le_floorBoundary hnext hfits
    rw [floorBoundary] at hle
    have := c.utf8Size_pos
    omega

/-! ## Bytes of strings

Boundaries and slices are about lists of characters, like everything that is read. A window is cut
out of a string, so what it is has to be said of strings and their bytes. -/

theorem byteCount_toList (s : String) : byteCount s.toList = s.utf8ByteSize := by
  obtain ⟨cs, rfl⟩ := s.exists_eq_ofList
  rw [String.toList_ofList]
  induction cs with
  | nil => rfl
  | cons c cs ih =>
    rw [byteCount_cons, ih, String.ofList_cons, String.utf8ByteSize_append,
      String.utf8ByteSize_singleton]

theorem IsBoundary.isValid {s : String} (h : IsBoundary s.toList n) :
    String.Pos.Raw.IsValid s ⟨n⟩ := by
  obtain ⟨before, ⟨after, hs⟩, rfl⟩ := h
  refine String.Pos.Raw.isValid_iff_exists_append.mpr
    ⟨String.ofList before, String.ofList after, ?_, ?_⟩
  · rw [← String.ofList_append, hs, String.ofList_toList]
  · rw [String.Pos.Raw.ext_iff, String.byteIdx_rawEndPos, ← byteCount_toList, String.toList_ofList]

/-- A slice is what the text has between two bytes. -/
theorem IsSlice.toByteArray_eq {s : String} {start stop : Nat} {part : List Char}
    (h : IsSlice s.toList start stop part) :
    (String.ofList part).toByteArray = s.toByteArray.extract start stop := by
  obtain ⟨before, after, hs, rfl, rfl⟩ := h
  have hsize : ∀ cs : List Char, (String.ofList cs).toByteArray.size = byteCount cs := fun cs ↦ by
    rw [String.size_toByteArray, ← byteCount_toList, String.toList_ofList]
  have hbytes : s.toByteArray = (String.ofList before).toByteArray ++
      ((String.ofList part).toByteArray ++ (String.ofList after).toByteArray) := by
    rw [← String.ofList_toList (s := s), hs, List.append_assoc, String.ofList_append,
      String.ofList_append, String.toByteArray_append, String.toByteArray_append]
  rw [byteCount_append, ← hsize before, ← hsize part, hbytes,
    ← Nat.add_zero (String.ofList before).toByteArray.size, Nat.add_assoc,
    ByteArray.extract_append_size_add, Nat.zero_add]
  exact (ByteArray.extract_append_eq_left rfl).symm

/-! ## Windows -/

/-- The position in a text that a number of bytes is rounded down to. -/
def bound (text : String) (n : Nat) : String.Pos.Raw :=
  ⟨floorBoundary text.toList n⟩

/-- What a part has to be to show the bytes of a text from `low` up to, but not including, `high`:
it can be cut out at the rounded bounds, it is what stands between them, and it has every character
that lies among those bytes. -/
structure IsWindow (text : String) (low high : Nat) (part : String) : Prop where
  ordered : bound text low ≤ bound text high
  inside : bound text high ≤ text.rawEndPos
  isValid_start : (bound text low).IsValid text
  isValid_stop : (bound text high).IsValid text
  toByteArray_eq : part.toByteArray =
    text.toByteArray.extract (bound text low).byteIdx (bound text high).byteIdx
  /-- A character that lies among the bytes is shown in its place. -/
  shows : ∀ (before : String) (c : Char) (after : String),
    text = before ++ String.singleton c ++ after → low ≤ before.utf8ByteSize →
      before.utf8ByteSize + c.utf8Size ≤ high →
      ∃ left right, part = left ++ String.singleton c ++ right ∧
        before.utf8ByteSize = (bound text low).byteIdx + left.utf8ByteSize
  start_le : (bound text low).byteIdx ≤ low
  /-- Of what lies in front, three bytes are shown at most. Where all of the text does, nothing else
  is left to show. -/
  low_le : min low text.utf8ByteSize ≤ (bound text low).byteIdx + 3
  stop_le : (bound text high).byteIdx ≤ high

/-- **What is cut out between two rounded bounds is a window.** -/
theorem isWindow_of_isSlice {text : String} {low high : Nat} {part : List Char} (hle : low ≤ high)
    (h : IsSlice text.toList (floorBoundary text.toList low) (floorBoundary text.toList high)
      part) :
    IsWindow text low high (String.ofList part) := by
  have hstart := isBoundary_floorBoundary text.toList low
  have hstop := isBoundary_floorBoundary text.toList high
  constructor
  case ordered => exact floorBoundary_mono hle text.toList
  case inside =>
    rw [String.Pos.Raw.le_iff, String.byteIdx_rawEndPos, ← byteCount_toList]
    exact hstop.le_byteCount
  case isValid_start => exact hstart.isValid
  case isValid_stop => exact hstop.isValid
  case toByteArray_eq => exact h.toByteArray_eq
  case shows =>
    rintro before c after rfl hlow hhigh
    rw [← byteCount_toList] at hlow hhigh
    rw [String.toList_append, String.toList_append, String.toList_singleton, List.append_assoc,
      List.singleton_append] at h
    have hends := le_floorBoundary (isBoundary_behind before.toList c after.toList) hhigh
    obtain ⟨skipped, left, right, rest, hbefore, -, rfl, hskipped⟩ :=
      h.exists_around (le_trans (byteCount_takeBytes_le _ _) hlow) hends
    refine ⟨String.ofList left, String.ofList right, ?_, ?_⟩
    · rw [← String.toList_inj]
      simp
    · rw [← byteCount_toList, ← byteCount_toList, hbefore, byteCount_append, hskipped,
        String.toList_ofList, bound]
      simp
  case start_le => exact byteCount_takeBytes_le low text.toList
  case low_le =>
    rw [← byteCount_toList]
    exact min_le_floorBoundary_add_three text.toList low
  case stop_le => exact byteCount_takeBytes_le high text.toList

/-! ## 64-bit offsets -/

/-- The difference of two 64-bit numbers, zero where there is none. -/
def saturatingSub (a b : UInt64) : UInt64 :=
  if b ≤ a then a - b else 0

/-- The sum of two 64-bit numbers, the greatest one where it is too great. -/
def saturatingAdd (a b : UInt64) : UInt64 :=
  if a.toNat + b.toNat < UInt64.size then a + b else .ofNat (UInt64.size - 1)

theorem toNat_saturatingSub (a b : UInt64) : (saturatingSub a b).toNat = a.toNat - b.toNat := by
  rw [saturatingSub]
  split
  · next h => exact UInt64.toNat_sub_of_le a b h
  · next h =>
    rw [UInt64.le_iff_toNat_le] at h
    exact (Nat.sub_eq_zero_of_le (by omega)).symm

theorem toNat_saturatingAdd (a b : UInt64) :
    (saturatingAdd a b).toNat = min (a.toNat + b.toNat) (UInt64.size - 1) := by
  rw [saturatingAdd]
  split
  · next h =>
    rw [UInt64.toNat_add, Nat.mod_eq_of_lt h, Nat.min_eq_left (Nat.le_sub_one_of_lt h)]
  · next h =>
    rw [Nat.min_eq_right (le_trans (Nat.sub_le _ 1) (Nat.le_of_not_lt h))]
    rfl

/-- **Windows are safe and cover the radius**, whatever the offset. If the length of the text is a
64-bit number, they do so with the sum cut off as well. -/
theorem isWindow_window (text : String) (offset radius : UInt64) :
    IsWindow text (offset.toNat - radius.toNat) (offset.toNat + radius.toNat)
        (String.ofList (window text.toList offset.toNat radius.toNat)) ∧
      (text.utf8ByteSize < UInt64.size →
        IsWindow text (saturatingSub offset radius).toNat (saturatingAdd offset radius).toNat
          (String.ofList (window text.toList offset.toNat radius.toNat))) := by
  have hslice := isSlice_window text.toList offset.toNat radius.toNat
  refine ⟨isWindow_of_isSlice (by omega) hslice, fun hfits ↦ ?_⟩
  rw [← byteCount_toList] at hfits
  rw [← toNat_saturatingSub, ← floorBoundary_min (n := offset.toNat + radius.toNat)
    (Nat.le_sub_one_of_lt hfits), ← toNat_saturatingAdd] at hslice
  refine isWindow_of_isSlice ?_ hslice
  rw [toNat_saturatingSub, toNat_saturatingAdd]
  have := offset.toNat_lt_size
  omega

/-- The offset and the sum lie far behind the end, and the first byte lies inside a character. -/
theorem isWindow_window_far :
    "aé€b".utf8ByteSize < UInt64.size ∧
      IsWindow "aé€b" (saturatingSub (-1) (-6)).toNat (saturatingAdd (-1) (-6)).toNat "€b" := by
  have hfits : "aé€b".utf8ByteSize < UInt64.size := by decide
  have hshown :
      String.ofList (window "aé€b".toList (-1 : UInt64).toNat (-6 : UInt64).toNat) = "€b" := by
    decide
  refine ⟨hfits, ?_⟩
  rw [← hshown]
  exact (isWindow_window "aé€b" (-1) (-6)).2 hfits

end BarBridge.Text
