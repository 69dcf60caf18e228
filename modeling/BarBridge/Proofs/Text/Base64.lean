import BarBridge.Text.Base64

/-!
# Reading base64

The reader takes four characters at a time. Only the last group may be filled up, and the bits that
the filling stands for have to be zero, so every list of bytes has one written form. What is written
is read back (`readBase64_base64`); and so is a text whose UTF-8 form has been written
(`ofUtf8_utf8`).
-/

namespace BarBridge.Text

/-- The six-bit number of a character. -/
def base64Value? (c : Char) : Option Nat :=
  if 'A' ≤ c ∧ c ≤ 'Z' then some (c.toNat - 'A'.toNat)
  else if 'a' ≤ c ∧ c ≤ 'z' then some (c.toNat - 'a'.toNat + 26)
  else if '0' ≤ c ∧ c ≤ '9' then some (c.toNat - '0'.toNat + 52)
  else if c = '+' then some 62
  else if c = '/' then some 63
  else none

/-- The byte of a group of one. -/
def readOne (a b : Nat) : Option (List UInt8) :=
  if b % 16 = 0 then some [.ofNat (a * 4 + b / 16)] else none

/-- The bytes of a group of two. -/
def readTwo (a b c : Nat) : Option (List UInt8) :=
  if c % 4 = 0 then some [.ofNat (a * 4 + b / 16), .ofNat (b % 16 * 16 + c / 4)] else none

/-- The bytes of a full group. -/
def readThree (a b c d : Nat) : List UInt8 :=
  [.ofNat (a * 4 + b / 16), .ofNat (b % 16 * 16 + c / 4), .ofNat (c % 4 * 64 + d)]

/-- The bytes that a text in base64 stands for. -/
def readBase64 : List Char → Option (List UInt8)
  | [] => some []
  | a :: b :: c :: d :: rest => do
    let a ← base64Value? a
    let b ← base64Value? b
    if d = '=' then
      if rest ≠ [] then none
      else if c = '=' then readOne a b
      else readTwo a b (← base64Value? c)
    else return readThree a b (← base64Value? c) (← base64Value? d) ++ (← readBase64 rest)
  | _ => none

/-- The text of which the bytes are the UTF-8 form. -/
def ofUtf8 (bytes : List UInt8) : Option String :=
  String.fromUTF8? bytes.toByteArray

/-! ## One group -/

theorem base64Value?_base64Char : ∀ n < 64, base64Value? (base64Char n) = some n := by decide

theorem base64Char_ne_fill : ∀ n < 64, base64Char n ≠ '=' := by decide

theorem readOne_split (a : UInt8) : readOne (a.toNat / 4) (a.toNat % 4 * 16) = some [a] := by
  rw [readOne, if_pos (by omega), show a.toNat / 4 * 4 + a.toNat % 4 * 16 / 16 = a.toNat by omega,
    UInt8.ofNat_toNat]

theorem readTwo_split (a b : UInt8) :
    readTwo (a.toNat / 4) (a.toNat % 4 * 16 + b.toNat / 16) (b.toNat % 16 * 4) =
      some [a, b] := by
  have hb : b.toNat < 256 := b.toNat_lt
  rw [readTwo, if_pos (by omega),
    show a.toNat / 4 * 4 + (a.toNat % 4 * 16 + b.toNat / 16) / 16 = a.toNat by omega,
    show (a.toNat % 4 * 16 + b.toNat / 16) % 16 * 16 + b.toNat % 16 * 4 / 4 = b.toNat by omega,
    UInt8.ofNat_toNat, UInt8.ofNat_toNat]

theorem readThree_split (a b c : UInt8) :
    readThree (a.toNat / 4) (a.toNat % 4 * 16 + b.toNat / 16) (b.toNat % 16 * 4 + c.toNat / 64)
      (c.toNat % 64) = [a, b, c] := by
  have hb : b.toNat < 256 := b.toNat_lt
  have hc : c.toNat < 256 := c.toNat_lt
  rw [readThree,
    show a.toNat / 4 * 4 + (a.toNat % 4 * 16 + b.toNat / 16) / 16 = a.toNat by omega,
    show (a.toNat % 4 * 16 + b.toNat / 16) % 16 * 16 + (b.toNat % 16 * 4 + c.toNat / 64) / 4 =
      b.toNat by omega,
    show (b.toNat % 16 * 4 + c.toNat / 64) % 4 * 64 + c.toNat % 64 = c.toNat by omega,
    UInt8.ofNat_toNat, UInt8.ofNat_toNat, UInt8.ofNat_toNat]

/-- **What is written is read back.** The induction takes a group at a time, as the writer does. -/
theorem readBase64_base64 (bytes : List UInt8) : readBase64 (base64 bytes) = some bytes := by
  fun_induction base64 bytes with
  | case1 => rfl
  | case2 a =>
    have ha : a.toNat < 256 := a.toNat_lt
    have h₁ := base64Value?_base64Char (a.toNat / 4) (by omega)
    have h₂ := base64Value?_base64Char (a.toNat % 4 * 16) (by omega)
    simp only [readBase64, h₁, h₂, Option.bind_eq_bind, Option.bind_some, ne_eq, not_true_eq_false,
      if_true, if_false]
    exact readOne_split a
  | case3 a b =>
    have ha : a.toNat < 256 := a.toNat_lt
    have hb : b.toNat < 256 := b.toNat_lt
    have h₁ := base64Value?_base64Char (a.toNat / 4) (by omega)
    have h₂ := base64Value?_base64Char (a.toNat % 4 * 16 + b.toNat / 16) (by omega)
    have h₃ := base64Value?_base64Char (b.toNat % 16 * 4) (by omega)
    have hne := base64Char_ne_fill (b.toNat % 16 * 4) (by omega)
    simp only [readBase64, h₁, h₂, h₃, hne, Option.bind_eq_bind, Option.bind_some, ne_eq,
      not_true_eq_false, if_true, if_false]
    exact readTwo_split a b
  | case4 a b c rest ih =>
    have ha : a.toNat < 256 := a.toNat_lt
    have hb : b.toNat < 256 := b.toNat_lt
    have hc : c.toNat < 256 := c.toNat_lt
    have h₁ := base64Value?_base64Char (a.toNat / 4) (by omega)
    have h₂ := base64Value?_base64Char (a.toNat % 4 * 16 + b.toNat / 16) (by omega)
    have h₃ := base64Value?_base64Char (b.toNat % 16 * 4 + c.toNat / 64) (by omega)
    have h₄ := base64Value?_base64Char (c.toNat % 64) (by omega)
    have hne := base64Char_ne_fill (c.toNat % 64) (by omega)
    simp only [readBase64, h₁, h₂, h₃, h₄, hne, ih, Option.bind_eq_bind, Option.bind_some, if_false]
    rw [readThree_split]
    rfl

theorem exists_of_mem_base64 {c : Char} {bytes : List UInt8} (h : c ∈ base64 bytes) :
    c = '=' ∨ ∃ n < 64, base64Char n = c := by
  have hbyte : ∀ a : UInt8, a.toNat < 256 := UInt8.toNat_lt
  fun_induction base64 bytes with
  | case1 => exact absurd h List.not_mem_nil
  | case2 a =>
    have := hbyte a
    simp only [List.mem_cons, List.not_mem_nil, or_false] at h
    rcases h with rfl | rfl | rfl | rfl
    · exact .inr ⟨_, by omega, rfl⟩
    · exact .inr ⟨_, by omega, rfl⟩
    · exact .inl rfl
    · exact .inl rfl
  | case3 a b =>
    have := hbyte a
    have := hbyte b
    simp only [List.mem_cons, List.not_mem_nil, or_false] at h
    rcases h with rfl | rfl | rfl | rfl
    · exact .inr ⟨_, by omega, rfl⟩
    · exact .inr ⟨_, by omega, rfl⟩
    · exact .inr ⟨_, by omega, rfl⟩
    · exact .inl rfl
  | case4 a b d rest ih =>
    have := hbyte a
    have := hbyte b
    have := hbyte d
    simp only [List.mem_cons] at h
    rcases h with rfl | rfl | rfl | rfl | h
    · exact .inr ⟨_, by omega, rfl⟩
    · exact .inr ⟨_, by omega, rfl⟩
    · exact .inr ⟨_, by omega, rfl⟩
    · exact .inr ⟨_, by omega, rfl⟩
    · exact ih h

theorem space_notMem_base64 (bytes : List UInt8) : ' ' ∉ base64 bytes := by
  have hchars : ∀ n < 64, base64Char n ≠ ' ' := by decide
  intro h
  rcases exists_of_mem_base64 h with h | ⟨n, hn, h⟩
  · exact absurd h (by decide)
  · exact hchars n hn h

theorem ofUtf8_utf8 (s : String) : ofUtf8 (utf8 s.toList) = some s := by
  have hbytes : (utf8 s.toList).toByteArray = s.toByteArray := by
    rw [← String.utf8Encode_toList]
    rfl
  rw [ofUtf8, hbytes, String.fromUTF8?, dif_pos s.isValidUTF8]
  rfl

end BarBridge.Text
