import BarBridge.Proofs.Json.TokenOrder

/-!
# How tokens are spelled

The machine that cuts a text into tokens reads one character at a time and knows nothing of what
follows. Here the spelling of a string literal and of a keyword or numeral is stated on its own,
without states or positions, and the machine is shown to read exactly these spellings: what is
spelled right is read as what it denotes (`run_string`, `run_scalar`), and where no token is broken,
everything is spelled right (`exists_spells`, `exists_spellsScalar`).

Positions stay out of the statements. A token's place depends on the text before it, its value does
not, and only values matter to a reader that succeeds.
-/

namespace BarBridge.Json

open Text

/-! ## The spelling of a string -/

/-- The number that four hexadecimal digits denote. -/
def hexCode? (a b c d : Char) : Option Nat := do
  return 16 * (16 * (16 * (← hexDigit? a) + (← hexDigit? b)) + (← hexDigit? c)) + (← hexDigit? d)

/-- The two halves of the codes that stand for a character only together. -/
abbrev isHigh (code : Nat) : Prop :=
  0xD800 ≤ code ∧ code ≤ 0xDBFF

abbrev isLow (code : Nat) : Prop :=
  0xDC00 ≤ code ∧ code ≤ 0xDFFF

/-- `Spells body s` says that `body`, between two quotes, is a literal for the text `s`. -/
inductive Spells : List Char → List Char → Prop where
  | nil : Spells [] []
  | plain {c : Char} {body s : List Char} (hquote : c ≠ '"') (hslash : c ≠ '\\')
      (hcontrol : 0x20 ≤ c.toNat) : Spells body s → Spells (c :: body) (c :: s)
  | escape {e c : Char} {body s : List Char} (he : simpleEscape? e = some c) :
      Spells body s → Spells ('\\' :: e :: body) (c :: s)
  | code {w x y z : Char} {n : Nat} {body s : List Char} (hn : hexCode? w x y z = some n)
      (hhigh : ¬isHigh n) (hlow : ¬isLow n) :
      Spells body s → Spells ('\\' :: 'u' :: w :: x :: y :: z :: body) (Char.ofNat n :: s)
  | pair {w x y z w' x' y' z' : Char} {m n : Nat} {body s : List Char}
      (hm : hexCode? w x y z = some m) (hn : hexCode? w' x' y' z' = some n)
      (hhigh : isHigh m) (hlow : isLow n) :
      Spells body s →
        Spells ('\\' :: 'u' :: w :: x :: y :: z :: '\\' :: 'u' :: w' :: x' :: y' :: z' :: body)
          (Char.ofNat (0x10000 + (m - 0xD800) * 0x400 + (n - 0xDC00)) :: s)

/-! ## Four hexadecimal digits

An escape is read digit by digit, with the number so far, and where it ends is known by the position
of its first digit. Put together, the four steps are one, and positions and digits do not come up
again. -/

theorem toNat_of_hexDigit? {c : Char} {n : Nat} (h : hexDigit? c = some n) :
    48 ≤ c.toNat ∧ c.toNat ≤ 102 ∧ c.toNat ≠ 92 := by
  have bounds : ∀ {a b : Char}, a ≤ c ∧ c ≤ b → a.toNat ≤ c.toNat ∧ c.toNat ≤ b.toNat := by
    rintro a b ⟨ha, hb⟩
    exact ⟨UInt32.le_iff_toNat_le.mp (Char.le_def.mp ha),
      UInt32.le_iff_toNat_le.mp (Char.le_def.mp hb)⟩
  have h0 : '0'.toNat = 48 ∧ '9'.toNat = 57 := ⟨rfl, rfl⟩
  have ha : 'a'.toNat = 97 ∧ 'f'.toNat = 102 := ⟨rfl, rfl⟩
  have hA : 'A'.toNat = 65 ∧ 'F'.toNat = 70 := ⟨rfl, rfl⟩
  rw [hexDigit?] at h
  split at h
  · next hc => have := bounds hc; omega
  · split at h
    · next hc => have := bounds hc; omega
    · split at h
      · next hc => have := bounds hc; omega
      · simp at h

theorem utf8Size_of_hexDigit? {c : Char} {n : Nat} (h : hexDigit? c = some n) :
    c.utf8Size = 1 := by
  obtain ⟨-, hle, -⟩ := toNat_of_hexDigit? h
  rw [Char.utf8Size_eq_one_iff, UInt32.le_iff_toNat_le]
  exact Nat.le_trans hle (by decide)

theorem hexDigits_of_hexCode? {w x y z : Char} {n : Nat} (h : hexCode? w x y z = some n) :
    ∃ a b c d, hexDigit? w = some a ∧ hexDigit? x = some b ∧ hexDigit? y = some c ∧
      hexDigit? z = some d ∧ 16 * (16 * (16 * a + b) + c) + d = n := by
  simp only [hexCode?, bind, Option.bind_eq_some_iff] at h
  obtain ⟨a, ha, b, hb, c, hc, d, hd, hn⟩ := h
  exact ⟨a, b, c, d, ha, hb, hc, hd, by simpa using hn⟩

theorem byteCount_of_hexCode? {w x y z : Char} {n : Nat} (h : hexCode? w x y z = some n)
    (cs : List Char) : byteCount (w :: x :: y :: z :: cs) = 4 + byteCount cs := by
  obtain ⟨a, b, c, d, ha, hb, hc, hd, -⟩ := hexDigits_of_hexCode? h
  simp only [byteCount_cons, utf8Size_of_hexDigit? ha, utf8Size_of_hexDigit? hb,
    utf8Size_of_hexDigit? hc, utf8Size_of_hexDigit? hd]
  omega

namespace Scan

theorem run_cons (state : Scan) (i : Nat) (c : Char) (cs : List Char) :
    run state i (c :: cs) =
      (state.step i c).1 ++ run (state.step i c).2 (i + c.utf8Size) cs := rfl

theorem run_of_step {state state' : Scan} {i : Nat} {c : Char}
    (h : state.step i c = ([], state')) (cs : List Char) :
    run state i (c :: cs) = run state' (i + c.utf8Size) cs := by
  rw [run_cons, h]
  rfl

theorem run_hex_cons {c : Char} {d : Nat} (hd : hexDigit? c = some d) (start : Nat)
    (done : List Char) (high : Option Nat) (first code i : Nat) (cs : List Char) :
    run (.hex start done high first (some code)) i (c :: cs) =
      if first + 4 ≤ i + 1 then
        (stepCode start done high (first + 4) (some (16 * code + d))).1 ++
          run (stepCode start done high (first + 4) (some (16 * code + d))).2 (i + 1) cs
      else run (.hex start done high first (some (16 * code + d))) (i + 1) cs := by
  rw [run_cons, step, stepHex, utf8Size_of_hexDigit? hd, hd]
  split <;> rfl

theorem run_hex {w x y z : Char} {n : Nat} (hn : hexCode? w x y z = some n) (start : Nat)
    (done : List Char) (high : Option Nat) (first : Nat) (cs : List Char) :
    run (.hex start done high first (some 0)) first (w :: x :: y :: z :: cs) =
      (stepCode start done high (first + 4) (some n)).1 ++
        run (stepCode start done high (first + 4) (some n)).2 (first + 4) cs := by
  obtain ⟨a, b, c, d, ha, hb, hc, hd, rfl⟩ := hexDigits_of_hexCode? hn
  rw [run_hex_cons ha, if_neg (by omega), run_hex_cons hb, if_neg (by omega), run_hex_cons hc,
    if_neg (by omega), run_hex_cons hd, if_pos (by omega), Nat.mul_zero, Nat.zero_add]

theorem run_code {w x y z : Char} {n : Nat} (hn : hexCode? w x y z = some n) (hhigh : ¬isHigh n)
    (hlow : ¬isLow n) (start i : Nat) (done cs : List Char) :
    run (.string start done) i ('\\' :: 'u' :: w :: x :: y :: z :: cs) =
      run (.string start (Char.ofNat n :: done)) (i + 6) cs := by
  have hstep : stepCode start done none (i + 2 + 4) (some n) =
      ([], .string start (Char.ofNat n :: done)) := by
    rw [stepCode, if_neg hlow, if_neg hhigh]
  calc run (.string start done) i ('\\' :: 'u' :: w :: x :: y :: z :: cs)
      = run (.hex start done none (i + 2) (some 0)) (i + 2) (w :: x :: y :: z :: cs) := rfl
    _ = run (.string start (Char.ofNat n :: done)) (i + 6) cs := by
      rw [run_hex hn, hstep]
      rfl

theorem run_pair {w x y z w' x' y' z' : Char} {m n : Nat} (hm : hexCode? w x y z = some m)
    (hn : hexCode? w' x' y' z' = some n) (hhigh : isHigh m) (hlow : isLow n) (start i : Nat)
    (done cs : List Char) :
    run (.string start done) i
        ('\\' :: 'u' :: w :: x :: y :: z :: '\\' :: 'u' :: w' :: x' :: y' :: z' :: cs) =
      run (.string start (Char.ofNat (0x10000 + (m - 0xD800) * 0x400 + (n - 0xDC00)) :: done))
        (i + 12) cs := by
  have hfirst : stepCode start done none (i + 2 + 4) (some m) = ([], .pair start done m true) := by
    have hnot : ¬(0xDC00 ≤ m ∧ m ≤ 0xDFFF) := by
      have := hhigh.2
      omega
    rw [stepCode, if_neg hnot, if_pos hhigh]
  have hsecond : stepCode start done (some m) (i + 8 + 4) (some n) =
      ([], .string start
        (Char.ofNat (0x10000 + (m - 0xD800) * 0x400 + (n - 0xDC00)) :: done)) := by
    rw [stepCode, if_pos hlow]
  calc run (.string start done) i
        ('\\' :: 'u' :: w :: x :: y :: z :: '\\' :: 'u' :: w' :: x' :: y' :: z' :: cs)
      = run (.hex start done none (i + 2) (some 0)) (i + 2)
          (w :: x :: y :: z :: '\\' :: 'u' :: w' :: x' :: y' :: z' :: cs) := rfl
    _ = run (.hex start done (some m) (i + 8) (some 0)) (i + 8) (w' :: x' :: y' :: z' :: cs) := by
      rw [run_hex hm, hfirst]
      rfl
    _ = run (.string start
          (Char.ofNat (0x10000 + (m - 0xD800) * 0x400 + (n - 0xDC00)) :: done)) (i + 12) cs := by
      rw [run_hex hn, hsecond]
      rfl

/-! ## What is spelled right is read -/

/-- **A literal is read as the text it is spelled for.** The induction is on the spelling; the
characters read before it and the text behind the closing quote are arbitrary. -/
theorem run_string {body s : List Char} (h : Spells body s) (start i : Nat)
    (done rest : List Char) :
    run (.string start done) i (body ++ '"' :: rest) =
      ⟨start, .string (.ok (String.ofList (done.reverse ++ s)))⟩ ::
        run .gap (i + byteCount body + 1) rest := by
  induction h generalizing i done with
  | nil =>
    rw [List.nil_append, run_cons, step, if_pos rfl, List.append_nil]
    rfl
  | plain hquote hslash hcontrol _ ih =>
    rw [List.cons_append, run_cons, step, if_neg hquote, if_neg hslash, if_neg (by omega),
      List.nil_append, ih]
    simp [Nat.add_assoc]
  | @escape e c body s he _ ih =>
    -- The scanner asks for a code before it asks for one of the letters.
    have hne : e ≠ 'u' := by
      rintro rfl
      simp [simpleEscape?] at he
    rw [List.cons_append, List.cons_append, run_cons, step, if_neg (by decide), if_pos rfl,
      List.nil_append, run_cons, step, if_neg hne, he, List.nil_append, ih]
    simp [Nat.add_assoc]
  | @code w x y z n body s hn hhigh hlow _ ih =>
    have hcount : byteCount ('\\' :: 'u' :: w :: x :: y :: z :: body) = 6 + byteCount body := by
      rw [byteCount_cons, byteCount_cons, byteCount_of_hexCode? hn, ← Nat.add_assoc,
        ← Nat.add_assoc]
      rfl
    rw [show '\\' :: 'u' :: w :: x :: y :: z :: body ++ '"' :: rest =
        '\\' :: 'u' :: w :: x :: y :: z :: (body ++ '"' :: rest) from rfl,
      run_code hn hhigh hlow, ih, hcount, Nat.add_assoc i 6]
    simp
  | @pair w x y z w' x' y' z' m n body s hm hn hhigh hlow _ ih =>
    have hcount : byteCount ('\\' :: 'u' :: w :: x :: y :: z ::
        '\\' :: 'u' :: w' :: x' :: y' :: z' :: body) = 12 + byteCount body := by
      rw [byteCount_cons, byteCount_cons, byteCount_of_hexCode? hm, byteCount_cons, byteCount_cons,
        byteCount_of_hexCode? hn]
      have hslash : '\\'.utf8Size = 1 := rfl
      have hu : 'u'.utf8Size = 1 := rfl
      omega
    rw [show '\\' :: 'u' :: w :: x :: y :: z ::
        '\\' :: 'u' :: w' :: x' :: y' :: z' :: body ++ '"' :: rest =
        '\\' :: 'u' :: w :: x :: y :: z ::
          '\\' :: 'u' :: w' :: x' :: y' :: z' :: (body ++ '"' :: rest) from rfl,
      run_pair hm hn hhigh hlow, ih, hcount, Nat.add_assoc i 12]
    simp

end Scan

/-! ## What is read is spelled right

A fault is put into a token. So a text without a fault is one whose tokens are all whole, and for
every way in which a literal can go wrong it has to be seen that some token is broken then. -/

/-- No token is broken. -/
def Whole (ps : List Placed) : Prop :=
  ∀ p ∈ ps, p.token.isBroken = false

theorem Whole.of_cons {p : Placed} {ps : List Placed} (h : Whole (p :: ps)) : Whole ps :=
  fun q hq ↦ h q (List.mem_cons_of_mem p hq)

theorem not_whole_cons {p : Placed} (h : p.token.isBroken = true) (ps : List Placed) :
    ¬Whole (p :: ps) :=
  fun hw ↦ absurd (hw p List.mem_cons_self) (by simp [h])

namespace Scan

theorem not_whole_of_step {state state' : Scan} {i : Nat} {c : Char} {p : Placed} {ps : List Placed}
    (h : state.step i c = (p :: ps, state')) (hp : p.token.isBroken = true) (cs : List Char) :
    ¬Whole (run state i (c :: cs)) := by
  rw [run_cons, h]
  exact not_whole_cons hp _

theorem not_whole_hex_none (start : Nat) (done : List Char) (high : Option Nat) (first i : Nat)
    (cs : List Char) : ¬Whole (run (.hex start done high first none) i cs) := by
  induction cs generalizing i with
  | nil => exact not_whole_cons rfl []
  | cons c cs ih =>
    intro hw
    rw [run_cons, step, stepHex] at hw
    split at hw
    · exact not_whole_cons rfl _ hw
    · exact ih _ hw

theorem exists_hexDigit {start : Nat} {done : List Char} {high : Option Nat} {first code i : Nat}
    {cs : List Char} (h : Whole (run (.hex start done high first (some code)) i cs)) :
    ∃ c d cs', cs = c :: cs' ∧ hexDigit? c = some d := by
  cases cs with
  | nil => exact absurd h (not_whole_cons rfl [])
  | cons c cs =>
    cases hd : hexDigit? c with
    | some d => exact ⟨c, d, cs, rfl, hd⟩
    | none =>
      rw [run_cons, step, stepHex, hd] at h
      split at h
      · exact absurd h (not_whole_cons rfl _)
      · exact absurd h (not_whole_hex_none _ _ _ _ _ _)

theorem exists_hexCode {start : Nat} {done : List Char} {high : Option Nat} {first : Nat}
    {cs : List Char} (h : Whole (run (.hex start done high first (some 0)) first cs)) :
    ∃ w x y z n cs', cs = w :: x :: y :: z :: cs' ∧ hexCode? w x y z = some n ∧
      Whole ((stepCode start done high (first + 4) (some n)).1 ++
        run (stepCode start done high (first + 4) (some n)).2 (first + 4) cs') := by
  have hw := h
  obtain ⟨w, a, cs, rfl, ha⟩ := exists_hexDigit h
  rw [run_hex_cons ha, if_neg (by omega)] at h
  obtain ⟨x, b, cs, rfl, hb⟩ := exists_hexDigit h
  rw [run_hex_cons hb, if_neg (by omega)] at h
  obtain ⟨y, c, cs, rfl, hc⟩ := exists_hexDigit h
  rw [run_hex_cons hc, if_neg (by omega)] at h
  obtain ⟨z, d, cs, rfl, hd⟩ := exists_hexDigit h
  have hn : hexCode? w x y z = some (16 * (16 * (16 * a + b) + c) + d) := by
    simp [hexCode?, ha, hb, hc, hd]
  rw [run_hex hn] at hw
  exact ⟨w, x, y, z, _, cs, rfl, hn, hw⟩

/-- The first half of a pair is followed by an escape for the second half, and then the literal goes
on. -/
theorem exists_low {start : Nat} {done : List Char} {m i : Nat} {cs : List Char}
    (h : Whole (run (.pair start done m true) i cs)) :
    ∃ w x y z n cs' done' i', cs = '\\' :: 'u' :: w :: x :: y :: z :: cs' ∧
      hexCode? w x y z = some n ∧ isLow n ∧ Whole (run (.string start done') i' cs') := by
  cases cs with
  | nil => exact absurd h (not_whole_cons rfl [])
  | cons c cs =>
    by_cases hslash : c = '\\'
    · subst hslash
      rw [run_of_step (by rw [step, if_pos rfl])] at h
      cases cs with
      | nil => exact absurd h (not_whole_cons rfl [])
      | cons c cs =>
        by_cases hu : c = 'u'
        · subst hu
          rw [run_of_step (by rw [step, if_pos rfl])] at h
          obtain ⟨w, x, y, z, n, cs, rfl, hn, hw⟩ := exists_hexCode h
          by_cases hlow : isLow n
          · rw [stepCode, if_pos hlow] at hw
            exact ⟨w, x, y, z, n, cs, _, _, rfl, hn, hlow, hw⟩
          · rw [stepCode, if_neg hlow] at hw
            exact absurd hw (not_whole_cons rfl _)
        · exact absurd h (not_whole_of_step (by rw [step, if_neg hu, breakString]) rfl _)
    · exact absurd h (not_whole_of_step (by rw [step, if_neg hslash, breakString]) rfl _)

/-- **A literal that is not broken is spelled right up to a closing quote.** The recursion is on the
length of the rest, because an escape takes several characters at once. -/
theorem exists_spells {start i : Nat} {done cs : List Char}
    (h : Whole (run (.string start done) i cs)) :
    ∃ body s rest, cs = body ++ '"' :: rest ∧ Spells body s := by
  cases cs with
  | nil => exact absurd h (not_whole_cons rfl [])
  | cons c cs =>
    by_cases hquote : c = '"'
    · exact ⟨[], [], cs, by rw [hquote]; rfl, .nil⟩
    by_cases hslash : c = '\\'
    · subst hslash
      rw [run_of_step (by rw [step, if_neg hquote, if_pos rfl])] at h
      cases cs with
      | nil => exact absurd h (not_whole_cons rfl [])
      | cons e cs =>
        by_cases hu : e = 'u'
        · subst hu
          rw [run_of_step (by rw [step, if_pos rfl])] at h
          obtain ⟨w, x, y, z, n, cs, rfl, hn, hw⟩ := exists_hexCode h
          -- The second half of a pair is broken where no first half stands before it.
          by_cases hlow : isLow n
          · rw [stepCode, if_pos hlow] at hw
            exact absurd hw (not_whole_cons rfl _)
          by_cases hhigh : isHigh n
          · rw [stepCode, if_neg hlow, if_pos hhigh] at hw
            obtain ⟨w', x', y', z', n', cs, done', i', rfl, hn', hlow', hw'⟩ := exists_low hw
            obtain ⟨body, s, rest, rfl, hs⟩ := exists_spells hw'
            exact ⟨_, _, rest, rfl, .pair hn hn' hhigh hlow' hs⟩
          · rw [stepCode, if_neg hlow, if_neg hhigh] at hw
            obtain ⟨body, s, rest, rfl, hs⟩ := exists_spells hw
            exact ⟨_, _, rest, rfl, .code hn hhigh hlow hs⟩
        · cases he : simpleEscape? e with
          | none =>
            exact absurd h (not_whole_of_step (by rw [step, if_neg hu, he, breakString]) rfl _)
          | some c =>
            rw [run_of_step (by rw [step, if_neg hu, he])] at h
            obtain ⟨body, s, rest, rfl, hs⟩ := exists_spells h
            exact ⟨'\\' :: e :: body, c :: s, rest, rfl, .escape he hs⟩
    · by_cases hcontrol : c.toNat < 0x20
      · exact absurd h (not_whole_of_step
          (by rw [step, if_neg hquote, if_neg hslash, if_pos hcontrol, breakString]) rfl _)
      · rw [run_of_step (by rw [step, if_neg hquote, if_neg hslash, if_neg hcontrol])] at h
        obtain ⟨body, s, rest, rfl, hs⟩ := exists_spells h
        exact ⟨c :: body, c :: s, rest, rfl, .plain hquote hslash (by omega) hs⟩
termination_by cs.length

end Scan

/-! ## The spelling of a keyword or numeral

Neither has a mark at its end. It is over where a character comes that does not belong to it, so
what stands behind has a part in every statement (`startsBreak`). -/

/-- The numeral that a draft becomes with further characters. -/
def Stage.finish? (stage : Stage) (p : Draft) : List Char → Option Numeral
  | [] => if stage.complete then some (p.finish stage) else none
  | c :: cs =>
    match stage.next p c with
    | some (stage, p) => finish? stage p cs
    | none => none

theorem Stage.finish?_cons {stage stage' : Stage} {p p' : Draft} {c : Char}
    (h : stage.next p c = some (stage', p')) (w : List Char) :
    stage.finish? p (c :: w) = stage'.finish? p' w := by
  rw [Stage.finish?, h]

theorem Stage.exists_next_of_finish? {stage : Stage} {p : Draft} {c : Char} {w : List Char}
    {n : Numeral} (h : stage.finish? p (c :: w) = some n) :
    ∃ stage' p', stage.next p c = some (stage', p') ∧ stage'.finish? p' w = some n := by
  rw [Stage.finish?] at h
  split at h
  · next stage' p' hnext => exact ⟨stage', p', hnext, h⟩
  · exact absurd h (by simp)

/-- `SpellsScalar w v` says that `w` is a keyword or numeral for the value `v`. -/
inductive SpellsScalar : List Char → Json → Prop where
  | null : SpellsScalar ['n', 'u', 'l', 'l'] .null
  | true : SpellsScalar ['t', 'r', 'u', 'e'] (.bool true)
  | false : SpellsScalar ['f', 'a', 'l', 's', 'e'] (.bool false)
  | positive {w : List Char} {n : Numeral} {x : Number}
      (hn : Stage.sign.finish? (.begin false) w = some n) (hx : n.value = .ok x) :
      SpellsScalar w (.number x)
  | negative {w : List Char} {n : Numeral} {x : Number}
      (hn : Stage.sign.finish? (.begin true) w = some n) (hx : n.value = .ok x) :
      SpellsScalar ('-' :: w) (.number x)

/-- The mark of a structure as a token. -/
def markToken? : Char → Option Token
  | '[' => some .openArray
  | ']' => some .closeArray
  | '{' => some .openObject
  | '}' => some .closeObject
  | ',' => some .comma
  | ':' => some .colon
  | _ => none

/-- Whether a character ends a keyword or numeral before it. -/
def isBreak (c : Char) : Bool :=
  isGap c || (markToken? c).isSome || c == '"'

/-- Whether a text can stand behind a keyword or numeral. -/
def startsBreak (cs : List Char) : Prop :=
  ∀ c, cs.head? = some c → isBreak c = true

theorem isSome_markToken? {c : Char} :
    (markToken? c).isSome = true ↔
      c = '[' ∨ c = ']' ∨ c = '{' ∨ c = '}' ∨ c = ',' ∨ c = ':' := by
  unfold markToken?
  split <;> simp_all

theorem isBreak_iff {c : Char} :
    isBreak c = true ↔
      (c = ' ' ∨ c = '\t' ∨ c = '\n' ∨ c = '\r') ∨
        (c = '[' ∨ c = ']' ∨ c = '{' ∨ c = '}' ∨ c = ',' ∨ c = ':') ∨ c = '"' := by
  rw [isBreak, Bool.or_eq_true, Bool.or_eq_true, isSome_markToken?]
  simp only [isGap, Bool.or_eq_true, beq_iff_eq, or_assoc]

theorem isGap_of_not_isBreak {c : Char} (h : isBreak c = false) : isGap c = false := by
  rw [isBreak, Bool.or_eq_false_iff, Bool.or_eq_false_iff] at h
  exact h.1.1

theorem next_of_isBreak {c : Char} (h : isBreak c = true) (stage : Stage) (p : Draft) :
    stage.next p c = none := by
  rw [isBreak_iff] at h
  rcases h with (rfl | rfl | rfl | rfl) | (rfl | rfl | rfl | rfl | rfl | rfl) | rfl <;> rfl

theorem isDigit_of_isBreak {c : Char} (h : isBreak c = true) : c.isDigit = false := by
  rw [isBreak_iff] at h
  rcases h with (rfl | rfl | rfl | rfl) | (rfl | rfl | rfl | rfl | rfl | rfl) | rfl <;> rfl

namespace Scan

theorem run_keyword (owed : List Char) (v : Json) (start i : Nat) (rest : List Char) :
    run (.keyword start owed v) i (owed ++ rest) =
      ⟨start, .scalar (.ok v)⟩ :: run .gap (i + byteCount owed) rest := by
  induction owed generalizing i with
  | nil => cases rest <;> rfl
  | cons c owed ih =>
    rw [List.cons_append, run_of_step (by rw [step, if_pos rfl]), ih, byteCount_cons, Nat.add_assoc]

theorem token_of_value {p : Draft} {stage : Stage} {x : Number}
    (h : (p.finish stage).value = .ok x) (stop : Nat) :
    p.token stage stop = .scalar (.ok (.number x)) := by
  rw [Draft.token, h]

theorem run_numeral_of_startsBreak {stage : Stage} (hstage : stage.complete = true)
    {rest : List Char} (hrest : startsBreak rest) (start : Nat) (p : Draft) (i : Nat) :
    run (.numeral start stage p) i rest = ⟨start, p.token stage i⟩ :: run .gap i rest := by
  cases rest with
  | nil => rw [run, finish, if_pos hstage]; rfl
  | cons c cs =>
    have hc : isBreak c = true := hrest c rfl
    rw [run_cons, step, stepNumeral, next_of_isBreak hc, isDigit_of_isBreak hc, hstage]
    simp only [Bool.and_false, Bool.not_false, Bool.and_self, if_true]
    rfl

theorem run_numeral {w : List Char} {stage : Stage} {p : Draft} {n : Numeral} {x : Number}
    (hn : stage.finish? p w = some n) (hx : n.value = .ok x) {rest : List Char}
    (hrest : startsBreak rest) (start i : Nat) :
    run (.numeral start stage p) i (w ++ rest) =
      ⟨start, .scalar (.ok (.number x))⟩ :: run .gap (i + byteCount w) rest := by
  induction w generalizing stage p i with
  | nil =>
    rw [Stage.finish?] at hn
    split at hn
    · next hstage =>
      obtain rfl : p.finish stage = n := Option.some.inj hn
      rw [List.nil_append, run_numeral_of_startsBreak hstage hrest, token_of_value hx]
      rfl
    · exact absurd hn (by simp)
  | cons c w ih =>
    obtain ⟨stage', p', hnext, hn'⟩ := Stage.exists_next_of_finish? hn
    have hstep : step (.numeral start stage p) i c = ([], .numeral start stage' p') := by
      rw [step, stepNumeral, hnext]
    rw [List.cons_append, run_of_step hstep, ih hn', byteCount_cons, Nat.add_assoc]

theorem isDigit_of_next_sign {p q : Draft} {c : Char} {stage : Stage}
    (h : Stage.next .sign p c = some (stage, q)) : c.isDigit = true := by
  unfold Stage.next at h
  split at h
  · assumption
  · split at h
    · exact absurd h (by simp)
    · split at h
      · exact absurd h (by simp)
      · split at h <;> exact absurd h (by simp)

theorem stepGap_of_isDigit {c : Char} (h : c.isDigit = true) (i : Nat) :
    stepGap i c =
      match Stage.next .sign (.begin false) c with
      | some (stage, p) => ([], numeral i stage p)
      | none => ([⟨i, .stray⟩], halted) := by
  have hbreak : isBreak c = false := by
    refine Bool.eq_false_iff.mpr fun hc ↦ ?_
    rw [isDigit_of_isBreak hc] at h
    exact absurd h (by decide)
  unfold stepGap
  rw [isGap_of_not_isBreak hbreak, h]
  rfl

theorem step_gap_of_next {p : Draft} {c : Char} {stage : Stage}
    (h : Stage.next .sign (.begin false) c = some (stage, p)) (i : Nat) :
    gap.step i c = ([], .numeral i stage p) := by
  rw [step, stepGap_of_isDigit (isDigit_of_next_sign h), h]

/-- **A keyword or numeral is read as the value it spells**, given that a break or the end of the
text follows. -/
theorem run_scalar {w : List Char} {v : Json} (h : SpellsScalar w v) {rest : List Char}
    (hrest : startsBreak rest) (i : Nat) :
    run .gap i (w ++ rest) = ⟨i, .scalar (.ok v)⟩ :: run .gap (i + byteCount w) rest := by
  cases h with
  | null => exact run_keyword ['u', 'l', 'l'] .null i (i + 1) rest
  | true => exact run_keyword ['r', 'u', 'e'] (.bool true) i (i + 1) rest
  | false => exact run_keyword ['a', 'l', 's', 'e'] (.bool false) i (i + 1) rest
  | @positive _ n x hn hx =>
    -- A numeral without a sign has a first digit, and that begins the scanner's draft as well.
    rcases w with _ | ⟨c, w⟩
    · exact absurd hn (by simp [Stage.finish?, Stage.complete])
    · obtain ⟨stage, p, hnext, hn'⟩ := Stage.exists_next_of_finish? hn
      rw [List.cons_append, run_of_step (step_gap_of_next hnext i), run_numeral hn' hx hrest,
        byteCount_cons, Nat.add_assoc]
  | @negative w n x hn hx =>
    have hstep : gap.step i '-' = ([], .numeral i .sign (.begin true)) := rfl
    rw [List.cons_append, run_of_step hstep, run_numeral hn hx hrest, byteCount_cons, Nat.add_assoc]

/-! ### What is read is spelled right -/

theorem exists_keyword {owed : List Char} {v : Json} {start i : Nat} {cs : List Char}
    (h : Whole (run (.keyword start owed v) i cs)) : ∃ rest, cs = owed ++ rest := by
  induction owed generalizing i cs with
  | nil => exact ⟨cs, rfl⟩
  | cons letter owed ih =>
    cases cs with
    | nil => exact absurd h (not_whole_cons rfl [])
    | cons c cs =>
      by_cases hc : c = letter
      · subst hc
        rw [run_of_step (by rw [step, if_pos rfl])] at h
        obtain ⟨rest, rfl⟩ := ih h
        exact ⟨rest, rfl⟩
      · exact absurd h (not_whole_of_step (by rw [step, if_neg hc, breakScalar]) rfl _)

theorem exists_value_of_token {p : Draft} {stage : Stage} {stop : Nat}
    (h : (p.token stage stop).isBroken = false) :
    ∃ x, (p.finish stage).value = .ok x := by
  rw [Draft.token] at h
  cases hvalue : (p.finish stage).value with
  | ok x => exact ⟨x, rfl⟩
  | error unread =>
    rw [hvalue] at h
    exact absurd h (by simp [Token.isBroken])

theorem exists_numeral {stage : Stage} {p : Draft} {start i : Nat} {cs : List Char}
    (h : Whole (run (.numeral start stage p) i cs)) :
    ∃ w rest n x, cs = w ++ rest ∧ stage.finish? p w = some n ∧ n.value = .ok x ∧
      run (.numeral start stage p) i cs =
        ⟨start, .scalar (.ok (.number x))⟩ :: run .gap (i + byteCount w) rest := by
  -- A numeral ends at a character or at the end of the text; either way nothing more belongs to it.
  have hends : ∀ {stage : Stage} {p : Draft} {i : Nat} {cs : List Char},
      Whole (run (.numeral start stage p) i cs) → stage.complete = true →
      run (.numeral start stage p) i cs = ⟨start, p.token stage i⟩ :: run .gap i cs →
      ∃ w rest n x, cs = w ++ rest ∧ stage.finish? p w = some n ∧ n.value = .ok x ∧
        run (.numeral start stage p) i cs =
          ⟨start, .scalar (.ok (.number x))⟩ :: run .gap (i + byteCount w) rest := by
    intro stage p i cs hw hstage hrun
    obtain ⟨x, hx⟩ := exists_value_of_token (hw ⟨start, p.token stage i⟩ (by simp [hrun]))
    refine ⟨[], cs, p.finish stage, x, rfl, by rw [Stage.finish?, if_pos hstage], hx, ?_⟩
    rw [hrun, token_of_value hx]
    rfl
  induction cs generalizing stage p i with
  | nil =>
    cases hstage : stage.complete with
    | true => exact hends h hstage (by rw [run, finish, if_pos hstage]; rfl)
    | false =>
      rw [run, finish, if_neg (by simp [hstage])] at h
      exact absurd h (not_whole_cons rfl [])
  | cons c cs ih =>
    -- Either the character belongs to the numeral, or it ends it, or it breaks it.
    cases hnext : stage.next p c with
    | some next =>
      obtain ⟨stage', p'⟩ := next
      have hstep : step (.numeral start stage p) i c = ([], .numeral start stage' p') := by
        rw [step, stepNumeral, hnext]
      have hrun := run_of_step hstep cs
      rw [hrun] at h
      obtain ⟨w, rest, n, x, rfl, hn, hx, hw⟩ := ih h
      refine ⟨c :: w, rest, n, x, rfl, (Stage.finish?_cons hnext w).trans hn, hx, ?_⟩
      rw [hrun, hw, byteCount_cons, Nat.add_assoc]
    | none =>
      cases hend : stage.complete && !(stage == .zero && c.isDigit) with
      | true =>
        refine hends h (Bool.and_eq_true_iff.mp hend).1 ?_
        rw [run_cons, step, stepNumeral, hnext, hend]
        rfl
      | false =>
        have hstep : step (.numeral start stage p) i c =
            breakScalar start .numeralMalformed (i + 1) := by
          rw [step, stepNumeral, hnext, hend]
          rfl
        rw [breakScalar] at hstep
        exact absurd h (not_whole_of_step hstep rfl _)

theorem stepGap_of_not_isBreak {c : Char} (h : isBreak c = false) (hdigit : c.isDigit = false)
    (i : Nat) :
    c = '-' ∨ c = 'n' ∨ c = 't' ∨ c = 'f' ∨ stepGap i c = ([⟨i, .stray⟩], halted) := by
  unfold stepGap
  rw [isGap_of_not_isBreak h, hdigit]
  simp only [Bool.false_eq_true, if_false]
  split <;> first | exact absurd h (by decide) | simp

theorem ne_nil_of_spellsScalar {w : List Char} {v : Json} (h : SpellsScalar w v) : w ≠ [] := by
  rintro rfl
  cases h with
  | positive hn hx => exact absurd hn (by simp [Stage.finish?, Stage.complete])

/-- **What stands between breaks and is not broken spells a keyword or numeral** at its
beginning. -/
theorem exists_spellsScalar {c : Char} {i : Nat} {cs : List Char} (hc : isBreak c = false)
    (h : Whole (run .gap i (c :: cs))) :
    ∃ w rest v, c :: cs = w ++ rest ∧ SpellsScalar w v ∧
      run .gap i (c :: cs) = ⟨i, .scalar (.ok v)⟩ :: run .gap (i + byteCount w) rest := by
  have keyword : ∀ {letter : Char} {owed : List Char} {v : Json},
      SpellsScalar (letter :: owed) v → c = letter →
      gap.step i c = ([], .keyword i owed v) →
      ∃ w rest v, c :: cs = w ++ rest ∧ SpellsScalar w v ∧
        run .gap i (c :: cs) = ⟨i, .scalar (.ok v)⟩ :: run .gap (i + byteCount w) rest := by
    rintro letter owed v hv rfl hstep
    rw [run_of_step hstep] at h ⊢
    obtain ⟨rest, rfl⟩ := exists_keyword h
    refine ⟨c :: owed, rest, v, rfl, hv, ?_⟩
    rw [run_keyword, byteCount_cons, Nat.add_assoc]
  cases hdigit : c.isDigit with
  | true =>
    cases hnext : Stage.next .sign (.begin false) c with
    | none =>
      have hstep : gap.step i c = ([⟨i, .stray⟩], halted) := by
        rw [step, stepGap_of_isDigit hdigit, hnext]
      exact absurd h (not_whole_of_step hstep rfl _)
    | some next =>
      obtain ⟨stage, p⟩ := next
      rw [run_of_step (step_gap_of_next hnext i)] at h ⊢
      obtain ⟨w, rest, n, x, rfl, hn, hx, hw⟩ := exists_numeral h
      have hnumeral := (Stage.finish?_cons hnext w).trans hn
      refine ⟨c :: w, rest, .number x, rfl, .positive hnumeral hx, ?_⟩
      rw [hw, byteCount_cons, Nat.add_assoc]
  | false =>
    rcases stepGap_of_not_isBreak hc hdigit i with rfl | hn | ht | hf | hstray
    · have hstep : gap.step i '-' = ([], .numeral i .sign (.begin true)) := rfl
      rw [run_of_step hstep] at h ⊢
      obtain ⟨w, rest, n, x, rfl, hn, hx, hw⟩ := exists_numeral h
      refine ⟨'-' :: w, rest, .number x, rfl, .negative hn hx, ?_⟩
      rw [hw, byteCount_cons, Nat.add_assoc]
    · exact keyword .null hn (by rw [hn]; rfl)
    · exact keyword .true ht (by rw [ht]; rfl)
    · exact keyword .false hf (by rw [hf]; rfl)
    · exact absurd h (not_whole_of_step (by rw [step, hstray]) rfl _)

end Scan

end BarBridge.Json
