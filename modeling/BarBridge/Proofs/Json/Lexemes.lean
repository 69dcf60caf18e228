import BarBridge.Proofs.Json.Spelling

/-!
# The lexemes of a JSON text

A text that is read consists of lexemes, the spellings of its tokens, with blanks between them. The
cut into lexemes needs no grammar: marks stand alone, a literal runs to the next quote that no
backslash escapes, and whatever else stands together is a word.

Two statements tie this cut to reading. The lexemes of a text that is read denote its tokens, in
order (`denote_lexemes`). Conversely, any text in which the same lexemes stand, however many blanks
are between them, has the same tokens (`run_of_spaced`). Words need no blank between them, because
in a text that is read no two of them are neighbours.
-/

namespace BarBridge.Json

open Text

/-- The spelling of a token. -/
inductive Lexeme where
  | mark (c : Char)
  /-- A string literal; the quotes are left out. -/
  | literal (body : List Char)
  /-- A keyword or numeral, or anything else that stands together. -/
  | word (chars : List Char)
  deriving DecidableEq, Repr

namespace Lexeme

def chars : Lexeme → List Char
  | mark c => [c]
  | literal body => '"' :: (body ++ ['"'])
  | word cs => cs

/-- Whether a lexeme begins a container. -/
def isOpening : Lexeme → Bool
  | mark c => c == '[' || c == '{'
  | _ => false

/-- Whether a lexeme ends a container. -/
def isClosing : Lexeme → Bool
  | mark c => c == ']' || c == '}'
  | _ => false

/-- Whether a lexeme stands between two items, or between a key and its value. -/
def isSeparator : Lexeme → Bool
  | mark c => c == ',' || c == ':'
  | _ => false

end Lexeme

/-- Where the reader of lexemes stands; characters read are kept newest first. -/
inductive Lexing where
  | gap
  | literal (read : List Char)
  /-- In a literal, behind a backslash. -/
  | escape (read : List Char)
  | word (read : List Char)
  deriving Repr

/-- What a character between two lexemes completes and begins. -/
def beginLexeme (c : Char) : List Lexeme × Lexing :=
  if isGap c then ([], .gap)
  else if (markToken? c).isSome then ([.mark c], .gap)
  else if c = '"' then ([], .literal [])
  else ([], .word [c])

/-- The lexemes of the rest of a text. A literal that is not closed counts as a word. -/
def lexemesFrom : Lexing → List Char → List Lexeme
  | .gap, [] => []
  | .literal read, [] | .escape read, [] => [.word ('"' :: read.reverse)]
  | .word read, [] => [.word read.reverse]
  | .gap, c :: cs => (beginLexeme c).1 ++ lexemesFrom (beginLexeme c).2 cs
  | .literal read, c :: cs =>
    if c = '\\' then lexemesFrom (.escape (c :: read)) cs
    else if c = '"' then .literal read.reverse :: lexemesFrom .gap cs
    else lexemesFrom (.literal (c :: read)) cs
  | .escape read, c :: cs => lexemesFrom (.literal (c :: read)) cs
  | .word read, c :: cs =>
    if isBreak c then
      .word read.reverse :: ((beginLexeme c).1 ++ lexemesFrom (beginLexeme c).2 cs)
    else lexemesFrom (.word (c :: read)) cs

/-- The lexemes of a text. -/
def lexemes (text : List Char) : List Lexeme :=
  lexemesFrom .gap text

/-- `Spaced ls text` says that `text` is the lexemes `ls` with blanks before, between and behind
them. -/
inductive Spaced : List Lexeme → List Char → Prop where
  | nil : Spaced [] []
  | gap {c : Char} {ls : List Lexeme} {cs : List Char} (hc : isGap c = true) :
      Spaced ls cs → Spaced ls (c :: cs)
  | lexeme (l : Lexeme) {ls : List Lexeme} {cs : List Char} :
      Spaced ls cs → Spaced (l :: ls) (l.chars ++ cs)

/-- `l.Denotes t` says that `l` is a spelling of the token `t`. -/
inductive Lexeme.Denotes : Lexeme → Token → Prop where
  | mark {c : Char} {t : Token} (h : markToken? c = some t) : Denotes (.mark c) t
  | literal {body s : List Char} (h : Spells body s) :
      Denotes (.literal body) (.string (.ok (String.ofList s)))
  | word {w : List Char} {v : Json} (h : SpellsScalar w v) : Denotes (.word w) (.scalar (.ok v))

/-- Lexemes that denote tokens, in order. -/
abbrev Denote : List Lexeme → List Token → Prop :=
  List.Forall₂ Lexeme.Denotes

/-! ## The characters of a spelling

Scanners that look for quotes and backslashes alone agree on where a literal ends, and those that
look for quotes, slashes, commas and brackets alone pass over a word. -/

/-- Characters that hold no quote but behind a backslash, and do not end in a backslash that is to
escape something. -/
inductive Escaped : List Char → Prop where
  | nil : Escaped []
  | plain {c : Char} {cs : List Char} (hquote : c ≠ '"') (hslash : c ≠ '\\') :
      Escaped cs → Escaped (c :: cs)
  | escape (c : Char) {cs : List Char} : Escaped cs → Escaped ('\\' :: c :: cs)

theorem Escaped.hexCode {w x y z : Char} {n : Nat} (hn : hexCode? w x y z = some n)
    {cs : List Char} (h : Escaped cs) : Escaped (w :: x :: y :: z :: cs) := by
  have digit : ∀ {c : Char} {d : Nat} {cs : List Char}, hexDigit? c = some d → Escaped cs →
      Escaped (c :: cs) := by
    intro c d cs hd hcs
    obtain ⟨hlow, -, hslash⟩ := toNat_of_hexDigit? hd
    refine .plain ?_ ?_ hcs
    · rintro rfl
      exact absurd hlow (by decide)
    · rintro rfl
      exact absurd rfl hslash
  obtain ⟨a, b, c, d, ha, hb, hc, hd, -⟩ := hexDigits_of_hexCode? hn
  exact digit ha (digit hb (digit hc (digit hd h)))

theorem Spells.escaped {body s : List Char} (h : Spells body s) : Escaped body := by
  induction h with
  | nil => exact .nil
  | plain hquote hslash _ _ ih => exact .plain hquote hslash ih
  | escape _ _ ih => exact .escape _ ih
  | code hn _ _ _ ih => exact .escape 'u' (.hexCode hn ih)
  | pair hm hn _ _ _ ih => exact .escape 'u' (.hexCode hm (.escape 'u' (.hexCode hn ih)))

theorem toNat_of_simpleEscape? {e c : Char} (h : simpleEscape? e = some c) : 0x20 ≤ e.toNat := by
  unfold simpleEscape? at h
  split at h <;> first | decide | exact absurd h (by simp)

theorem toNat_of_hexCode? {w x y z : Char} {n : Nat} (h : hexCode? w x y z = some n) :
    ∀ c ∈ [w, x, y, z], 0x20 ≤ c.toNat := by
  obtain ⟨a, b, c, d, ha, hb, hc, hd, -⟩ := hexDigits_of_hexCode? h
  have := toNat_of_hexDigit? ha
  have := toNat_of_hexDigit? hb
  have := toNat_of_hexDigit? hc
  have := toNat_of_hexDigit? hd
  simp only [List.mem_cons, List.not_mem_nil, or_false]
  rintro e (rfl | rfl | rfl | rfl) <;> omega

theorem toNat_of_mem_spells {body s : List Char} (h : Spells body s) :
    ∀ c ∈ body, 0x20 ≤ c.toNat := by
  have hslash : 0x20 ≤ '\\'.toNat := by decide
  have hu : 0x20 ≤ 'u'.toNat := by decide
  induction h with
  | nil => simp
  | plain _ _ hcontrol _ ih => exact List.forall_mem_cons.mpr ⟨hcontrol, ih⟩
  | escape he _ ih =>
    simp only [List.forall_mem_cons]
    exact ⟨hslash, toNat_of_simpleEscape? he, ih⟩
  | code hn _ _ _ ih =>
    have hdigits := toNat_of_hexCode? hn
    simp only [List.forall_mem_cons] at hdigits ⊢
    exact ⟨hslash, hu, hdigits.1, hdigits.2.1, hdigits.2.2.1, hdigits.2.2.2.1, ih⟩
  | pair hm hn _ _ _ ih =>
    have hfirst := toNat_of_hexCode? hm
    have hsecond := toNat_of_hexCode? hn
    simp only [List.forall_mem_cons] at hfirst hsecond ⊢
    exact ⟨hslash, hu, hfirst.1, hfirst.2.1, hfirst.2.2.1, hfirst.2.2.2.1, hslash, hu, hsecond.1,
      hsecond.2.1, hsecond.2.2.1, hsecond.2.2.2.1, ih⟩

/-- The characters of keywords and numerals. -/
def isWordChar (c : Char) : Bool :=
  c.isDigit ||
    ['+', '-', '.', 'E', 'a', 'e', 'f', 'l', 'n', 'r', 's', 't', 'u'].contains c

theorem isBreak_of_isWordChar {c : Char} (h : isWordChar c = true) : isBreak c = false := by
  cases hbreak : isBreak c with
  | false => rfl
  | true =>
    rw [isBreak_iff] at hbreak
    rcases hbreak with (rfl | rfl | rfl | rfl) | (rfl | rfl | rfl | rfl | rfl | rfl) | rfl <;>
      exact absurd h (by decide)

theorem isWordChar_of_isDigit {c : Char} (h : c.isDigit = true) : isWordChar c = true := by
  rw [isWordChar, h]
  rfl

theorem isWordChar_of_next {stage stage' : Stage} {p p' : Draft} {c : Char}
    (h : stage.next p c = some (stage', p')) : isWordChar c = true := by
  unfold Stage.next at h
  split at h
  · next hdigit => exact isWordChar_of_isDigit hdigit
  · split at h
    · next hc => rw [hc]; rfl
    · split at h
      · next hc => rcases hc with rfl | rfl <;> rfl
      · split at h
        · next hc => rcases hc with rfl | rfl <;> rfl
        · exact absurd h (by simp)

theorem isWordChar_of_finish? {w : List Char} {stage : Stage} {p : Draft} {n : Numeral}
    (h : stage.finish? p w = some n) : ∀ c ∈ w, isWordChar c = true := by
  induction w generalizing stage p with
  | nil => simp
  | cons c w ih =>
    obtain ⟨stage', p', hnext, h'⟩ := Stage.exists_next_of_finish? h
    intro d hd
    rcases List.mem_cons.mp hd with rfl | hd
    · exact isWordChar_of_next hnext
    · exact ih h' d hd

theorem isWordChar_of_spellsScalar {w : List Char} {v : Json} (h : SpellsScalar w v) :
    ∀ c ∈ w, isWordChar c = true := by
  cases h with
  | null | true | false => exact List.all_eq_true.mp (by decide)
  | positive hn _ => exact isWordChar_of_finish? hn
  | negative hn _ =>
    intro c hc
    rcases List.mem_cons.mp hc with rfl | hc
    · rfl
    · exact isWordChar_of_finish? hn c hc

/-! ## Lexemes and breaks -/

theorem startsBreak_cons {c : Char} (h : isBreak c = true) (cs : List Char) :
    startsBreak (c :: cs) := by
  intro d hd
  obtain rfl := Option.some.inj hd
  exact h

theorem isBreak_of_isGap {c : Char} (h : isGap c = true) : isBreak c = true := by
  rw [isBreak, h]
  rfl

theorem isBreak_of_markToken? {c : Char} {t : Token} (h : markToken? c = some t) :
    isBreak c = true := by
  rw [isBreak, h, Option.isSome_some, Bool.or_true, Bool.true_or]

theorem startsBreak_of_spaced {ls : List Lexeme} {ts : List Token} {text : List Char}
    (hspaced : Spaced ls text) (hden : Denote ls ts)
    (hfirst : ∀ t, ts.head? = some t → t.isValue = false) : startsBreak text := by
  cases hspaced with
  | nil => simp [startsBreak]
  | gap hc _ => exact startsBreak_cons (isBreak_of_isGap hc) _
  | lexeme l hrest =>
    obtain ⟨t, ts', hl, -, rfl⟩ := List.forall₂_cons_left_iff.mp hden
    have ht := hfirst t rfl
    cases hl with
    | mark hc => exact startsBreak_cons (isBreak_of_markToken? hc) _
    | literal hs => exact absurd ht (by simp [Token.isValue])
    | word hv => exact absurd ht (by simp [Token.isValue])

theorem isValue_head?_of_isChain {t u : Token} {ts : List Token}
    (hchain : (t :: ts).IsChain Token.MayPrecede) (ht : t.isValue = true)
    (hu : ts.head? = some u) : u.isValue = false := by
  cases ts with
  | nil => exact absurd hu (by simp)
  | cons u' ts =>
    obtain rfl := Option.some.inj hu
    have hpair := (List.isChain_cons_cons.mp hchain).1
    cases hvalue : u'.isValue with
    | false => rfl
    | true => exact absurd ⟨ht, hvalue⟩ hpair.1

/-! ## Tokens of spaced lexemes

The machine ends a word at a break, so there has to be one behind it. A blank is one, and so is what
any lexeme begins with that is no word; and a second word does not follow in a document. -/

namespace Scan

theorem run_of_isGap {c : Char} (h : isGap c = true) (i : Nat) (cs : List Char) :
    run .gap i (c :: cs) = run .gap (i + c.utf8Size) cs := by
  refine run_of_step ?_ cs
  unfold step stepGap
  rw [if_pos h]

theorem run_of_markToken? {c : Char} {t : Token} (h : markToken? c = some t) (i : Nat)
    (cs : List Char) : run .gap i (c :: cs) = ⟨i, t⟩ :: run .gap (i + c.utf8Size) cs := by
  have hstep : gap.step i c = ([⟨i, t⟩], .gap) := by
    unfold markToken? at h
    split at h <;> first | (obtain rfl := Option.some.inj h; rfl) | exact absurd h (by simp)
  rw [run_cons, hstep]
  rfl

theorem run_literal {body s : List Char} (h : Spells body s) (i : Nat) (rest : List Char) :
    run .gap i ((Lexeme.literal body).chars ++ rest) =
      ⟨i, .string (.ok (String.ofList s))⟩ ::
        run .gap (i + byteCount (Lexeme.literal body).chars) rest := by
  have hstep : gap.step i '"' = ([], .string i []) := rfl
  have hcount : i + 1 + byteCount body + 1 = i + byteCount ('"' :: (body ++ ['"'])) := by
    have hquote : '"'.utf8Size = 1 := rfl
    rw [byteCount_cons, byteCount_append, byteCount_cons, byteCount_nil, hquote]
    omega
  rw [Lexeme.chars, List.cons_append, List.append_assoc, run_of_step hstep, List.cons_append,
    List.nil_append, run_string h, ← hcount]
  rfl

theorem run_mark {c : Char} {t : Token} (h : markToken? c = some t) (i : Nat) (rest : List Char) :
    run .gap i ((Lexeme.mark c).chars ++ rest) =
      ⟨i, t⟩ :: run .gap (i + byteCount (Lexeme.mark c).chars) rest := by
  rw [Lexeme.chars, List.cons_append, List.nil_append, run_of_markToken? h, byteCount_cons,
    byteCount_nil, Nat.add_zero]

theorem run_of_denotes {l : Lexeme} {t : Token} (h : l.Denotes t) {rest : List Char}
    (hrest : t.isValue = true → startsBreak rest) (i : Nat) :
    run .gap i (l.chars ++ rest) = ⟨i, t⟩ :: run .gap (i + byteCount l.chars) rest := by
  cases h with
  | mark hc => exact run_mark hc i rest
  | literal hs => exact run_literal hs i rest
  | word hv => exact run_scalar hv (hrest rfl) i

theorem exists_denotes {c : Char} {i : Nat} {cs : List Char} (hgap : ¬isGap c = true)
    (h : Whole (run .gap i (c :: cs))) :
    ∃ (l : Lexeme) (t : Token) (rest : List Char), c :: cs = l.chars ++ rest ∧ l.Denotes t ∧
      run .gap i (c :: cs) = ⟨i, t⟩ :: run .gap (i + byteCount l.chars) rest := by
  -- The first character tells which kind of lexeme it is.
  cases hmark : markToken? c with
  | some t => exact ⟨.mark c, t, cs, rfl, .mark hmark, run_mark hmark i cs⟩
  | none =>
    by_cases hquote : c = '"'
    · subst hquote
      have hstep : gap.step i '"' = ([], .string i []) := rfl
      rw [run_of_step hstep] at h
      obtain ⟨body, s, rest, rfl, hs⟩ := exists_spells h
      have hchars : '"' :: (body ++ '"' :: rest) = (Lexeme.literal body).chars ++ rest := by
        simp [Lexeme.chars]
      refine ⟨.literal body, _, rest, hchars, .literal hs, ?_⟩
      rw [hchars]
      exact run_literal hs i rest
    · have hbreak : isBreak c = false := by
        simp [isBreak, hgap, hmark, hquote]
      obtain ⟨w, rest, v, hw, hv, hrun⟩ := exists_spellsScalar hbreak h
      exact ⟨.word w, _, rest, hw, .word hv, hrun⟩

end Scan

/-- **The tokens of spaced lexemes.** Neighbours must be such as a document has, or two words could
run together. -/
theorem run_of_spaced {ls : List Lexeme} {ts : List Token} {text : List Char}
    (hspaced : Spaced ls text) (hden : Denote ls ts) (hchain : ts.IsChain Token.MayPrecede)
    (i : Nat) : (Scan.gap.run i text).map (·.token) = ts := by
  induction hspaced generalizing ts i with
  | nil =>
    rw [List.forall₂_nil_left_iff.mp hden]
    rfl
  | gap hc _ ih => rw [Scan.run_of_isGap hc, ih hden hchain]
  | @lexeme l ls cs hrest ih =>
    obtain ⟨t, ts', hl, hden', rfl⟩ := List.forall₂_cons_left_iff.mp hden
    -- A value is not followed by a value, so it does not run together with what is read next.
    have hnext : t.isValue = true → startsBreak cs := by
      intro ht
      refine startsBreak_of_spaced hrest hden' fun u hu ↦ ?_
      exact isValue_head?_of_isChain hchain ht hu
    rw [Scan.run_of_denotes hl hnext, List.map_cons, ih hden' hchain.tail]

/-! ## Lexemes of a text that is read

The cut goes by quotes, backslashes and breaks, and would cut a text with faults as well. Where no
token is broken it agrees with the machine: both take the same characters off the front of the text,
and the rest begins between two tokens again. -/

theorem lexemesFrom_literal {body : List Char} (h : Escaped body) (read rest : List Char) :
    lexemesFrom (.literal read) (body ++ '"' :: rest) =
      .literal (read.reverse ++ body) :: lexemes rest := by
  induction h generalizing read with
  | nil =>
    rw [List.nil_append, lexemesFrom, if_neg (by decide), if_pos rfl, List.append_nil]
    rfl
  | plain hquote hslash _ ih =>
    rw [List.cons_append, lexemesFrom, if_neg hslash, if_neg hquote, ih]
    simp
  | escape c _ ih =>
    rw [List.cons_append, List.cons_append, lexemesFrom, if_pos rfl, lexemesFrom, ih]
    simp

theorem lexemesFrom_word {w : List Char} (h : ∀ c ∈ w, isWordChar c = true) {rest : List Char}
    (hrest : startsBreak rest) (read : List Char) :
    lexemesFrom (.word read) (w ++ rest) = .word (read.reverse ++ w) :: lexemes rest := by
  induction w generalizing read with
  | nil =>
    cases rest with
    | nil => simp [lexemesFrom, lexemes]
    | cons c cs =>
      rw [List.nil_append, lexemesFrom, if_pos (hrest c rfl), List.append_nil, lexemes, lexemesFrom]
  | cons c w ih =>
    have hc : isBreak c = false := isBreak_of_isWordChar (h c List.mem_cons_self)
    rw [List.cons_append, lexemesFrom, hc, if_neg (by simp),
      ih fun d hd ↦ h d (List.mem_cons_of_mem c hd)]
    simp

theorem lexemes_of_isGap {c : Char} (h : isGap c = true) (cs : List Char) :
    lexemes (c :: cs) = lexemes cs := by
  rw [lexemes, lexemesFrom, beginLexeme, if_pos h]
  rfl

theorem lexemes_of_markToken? {c : Char} {t : Token} (h : markToken? c = some t)
    (cs : List Char) : lexemes (c :: cs) = .mark c :: lexemes cs := by
  -- Marks and blanks are different characters, so it does not matter which is asked for first.
  have hgap : ¬isGap c = true := by
    intro hgap
    simp only [isGap, Bool.or_eq_true, beq_iff_eq] at hgap
    rcases hgap with ((rfl | rfl) | rfl) | rfl <;> exact absurd h (by simp [markToken?])
  rw [lexemes, lexemesFrom, beginLexeme, if_neg hgap, h]
  rfl

theorem lexemes_of_not_isBreak {c : Char} (h : isBreak c = false) (cs : List Char) :
    lexemes (c :: cs) = lexemesFrom (.word [c]) cs := by
  simp only [isBreak, Bool.or_eq_false_iff, beq_eq_false_iff_ne] at h
  rw [lexemes, lexemesFrom, beginLexeme, if_neg (by simp [h.1.1]), if_neg (by simp [h.1.2]),
    if_neg h.2]
  rfl

theorem lexemes_word {w : List Char} {v : Json} (h : SpellsScalar w v) {rest : List Char}
    (hrest : startsBreak rest) : lexemes (w ++ rest) = .word w :: lexemes rest := by
  have hchars := isWordChar_of_spellsScalar h
  rcases w with _ | ⟨c, w⟩
  · exact absurd rfl (Scan.ne_nil_of_spellsScalar h)
  · have hc : isBreak c = false := isBreak_of_isWordChar (hchars c List.mem_cons_self)
    rw [List.cons_append, lexemes_of_not_isBreak hc]
    exact lexemesFrom_word (fun d hd ↦ hchars d (List.mem_cons_of_mem c hd)) hrest [c]

theorem lexemes_of_denotes {l : Lexeme} {t : Token} (h : l.Denotes t) {rest : List Char}
    (hrest : t.isValue = true → startsBreak rest) :
    lexemes (l.chars ++ rest) = l :: lexemes rest := by
  cases h with
  | mark hc => exact lexemes_of_markToken? hc rest
  | @literal body s hs =>
    rw [Lexeme.chars, List.cons_append, List.append_assoc]
    exact lexemesFrom_literal hs.escaped [] rest
  | word hv => exact lexemes_word hv (hrest rfl)

theorem Lexeme.Denotes.chars_ne_nil {l : Lexeme} {t : Token} (h : l.Denotes t) : l.chars ≠ [] := by
  cases h with
  | mark _ => exact List.cons_ne_nil _ _
  | literal _ => exact List.cons_ne_nil _ _
  | word hv => exact Scan.ne_nil_of_spellsScalar hv

/-- **The cut of a text without a broken token.** It loses nothing but blanks, and denotes the
tokens. -/
theorem spaced_and_denote_lexemes {text : List Char} {i : Nat}
    (hwhole : Whole (Scan.gap.run i text))
    (hchain : ((Scan.gap.run i text).map (·.token)).IsChain Token.MayPrecede) :
    Spaced (lexemes text) text ∧ Denote (lexemes text) ((Scan.gap.run i text).map (·.token)) := by
  -- A token takes several characters, so the induction is on the length of the text.
  induction hn : text.length using Nat.strong_induction_on generalizing text i with
  | _ n ih =>
    rcases text with _ | ⟨c, cs⟩
    · exact ⟨.nil, .nil⟩
    by_cases hgap : isGap c = true
    · have hshorter : cs.length < n := by
        rw [← hn, List.length_cons]
        omega
      rw [Scan.run_of_isGap hgap] at hwhole hchain ⊢
      rw [lexemes_of_isGap hgap]
      obtain ⟨hspaced, hden⟩ := ih _ hshorter hwhole hchain rfl
      exact ⟨.gap hgap hspaced, hden⟩
    · obtain ⟨l, t, rest, htext, hl, hrun⟩ := Scan.exists_denotes hgap hwhole
      have hshorter : rest.length < n := by
        have hpos := List.length_pos_iff.mpr hl.chars_ne_nil
        rw [← hn, htext, List.length_append]
        omega
      rw [hrun] at hwhole hchain ⊢
      obtain ⟨hspaced, hden⟩ := ih _ hshorter hwhole.of_cons hchain.tail rfl
      -- The tokens behind a value do not begin with one, so what stands behind a word is a break.
      have hrest : t.isValue = true → startsBreak rest := by
        intro ht
        refine startsBreak_of_spaced hspaced hden fun u hu ↦ ?_
        exact isValue_head?_of_isChain hchain ht hu
      rw [htext, lexemes_of_denotes hl hrest]
      exact ⟨.lexeme l hspaced, .cons hl hden⟩

/-- The tokens of a text. -/
def tokenValues (text : List Char) : List Token :=
  (tokens text).map (·.token)

theorem parse_eq_ok_iff {text : List Char} {v : Json} :
    parse text = .ok v ↔ Reader.initial.read (tokenValues text) = some v :=
  Reader.run_eq_ok_iff

theorem whole_of_parse {text : List Char} {v : Json} (h : parse text = .ok v) :
    Whole (tokens text) :=
  fun p hp ↦ Reader.isBroken_of_read (parse_eq_ok_iff.mp h) p.token
    (List.mem_map_of_mem (f := (·.token)) hp)

/-- **The lexemes of a text that is read.** -/
theorem denote_lexemes {text : List Char} {v : Json} (h : parse text = .ok v) :
    Spaced (lexemes text) text ∧ Denote (lexemes text) (tokenValues text) :=
  spaced_and_denote_lexemes (whole_of_parse h) (Reader.isChain_mayPrecede (parse_eq_ok_iff.mp h))

end BarBridge.Json
