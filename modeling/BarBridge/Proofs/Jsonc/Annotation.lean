import BarBridge.Proofs.Jsonc.Openings

/-!
# What is read as a configuration

Decoration says how a JSON text may be dressed up and still be read. This is the other direction:
every text that is read is a JSON text with something added, and the value read is the value of that
JSON text. What may be added is an annotation: blanks and comments between the lexemes, and one more
comma at the end of a container (`parse_eq_ok_iff_annotated`).

## Two readings of an annotation

Taken strictly, a comment separates the lexemes on either side of it, and a comma is added only
behind an item or a member. What is read is a little more than that, for two reasons.

* A comment is deleted and nothing takes its place. Within a keyword or numeral a block comment
  therefore goes unnoticed: the halves on either side of it are read as one word. A line comment
  leaves its line feed behind, and so does separate.
* A comma is deleted for the bracket behind it, whatever stands before it. So it may also stand
  alone in a container that has nothing in it.

The flag `lax` admits these two and nothing else. With it the annotations are exactly the texts that
are read, and without it there are texts that are read and are no annotation
(`lax_annotations_are_read`).
-/

namespace BarBridge.Jsonc

open Json Text

/-- `Torn w written` says that `written` is the word `w` with block comments in it. -/
inductive Torn : List Char → List Char → Prop where
  | nil : Torn [] []
  | char (c : Char) {w cs : List Char} : Torn w cs → Torn (c :: w) (c :: cs)
  | block {w body cs : List Char} (hbody : ¬['*', '/'] <:+: body) :
      Torn w cs → Torn w ('/' :: '*' :: (body ++ '*' :: '/' :: cs))

/-- How a lexeme may stand in a configuration: as it is, or torn if it is a word. -/
inductive StandsAs (lax : Bool) : Lexeme → List Char → Prop where
  | whole (l : Lexeme) : StandsAs lax l l.chars
  | torn {w written : List Char} (hlax : lax = true) (h : Torn w written) :
      StandsAs lax (.word w) written

/-- `Annotated lax before ls text` says that `text` is the lexemes `ls` with blanks and comments
before, between and behind them, and perhaps one more comma at the end of a container. The lexeme
`before` is the last one in front of `text`; there is none where no comma may be added. -/
inductive Annotated (lax : Bool) : Option Lexeme → List Lexeme → List Char → Prop where
  | nil {before : Option Lexeme} : Annotated lax before [] []
  /-- A line comment that the text ends with. -/
  | openLine {before : Option Lexeme} {body : List Char} (hbody : '\n' ∉ body) :
      Annotated lax before [] ('/' :: '/' :: body)
  /-- A block comment that is not closed. -/
  | openBlock {before : Option Lexeme} {body : List Char} (hbody : ¬['*', '/'] <:+: body) :
      Annotated lax before [] ('/' :: '*' :: body)
  | gap {before : Option Lexeme} {ls : List Lexeme} {c : Char} {cs : List Char}
      (hc : isGap c = true) : Annotated lax before ls cs → Annotated lax before ls (c :: cs)
  | line {before : Option Lexeme} {ls : List Lexeme} {body cs : List Char} (hbody : '\n' ∉ body) :
      Annotated lax before ls cs → Annotated lax before ls ('/' :: '/' :: (body ++ '\n' :: cs))
  | block {before : Option Lexeme} {ls : List Lexeme} {body cs : List Char}
      (hbody : ¬['*', '/'] <:+: body) :
      Annotated lax before ls cs →
        Annotated lax before ls ('/' :: '*' :: (body ++ '*' :: '/' :: cs))
  | lexeme {before : Option Lexeme} {l : Lexeme} {ls : List Lexeme} {written cs : List Char}
      (hl : StandsAs lax l written) :
      Annotated lax (some l) ls cs → Annotated lax before (l :: ls) (written ++ cs)
  /-- A comma that is added behind an item or member, or behind the opening bracket. -/
  | comma {l m : Lexeme} {ls : List Lexeme} {cs : List Char} (hl : l.isSeparator = false)
      (hopen : lax = true ∨ l.isOpening = false) (hm : m.isClosing = true) :
      Annotated lax none (m :: ls) cs → Annotated lax (some l) (m :: ls) (',' :: cs)

/-! ## From the lexemes of the repaired text back to the text

What repair has left is known, and the text is wanted. A character of the text that begins no
comment and is no comma to be deleted has been kept, so it is the first of the lexeme that is due;
and what the text goes on with is the rest of the lexeme. -/

theorem head_eq_of_isWordChar {c d : Char} {cs rest : List Char} (hopens : ¬opensComment c cs)
    (hd : isWordChar d = true) (h : sanitize (c :: cs) = d :: rest) : c = d := by
  have hhead : (dropAhead .outside (dropComments .code (c :: cs))).head? = some d := by
    rw [← sanitize_eq, h]
    rfl
  rw [dropComments_code_cons hopens] at hhead
  rcases head?_dropAhead hhead with hc | hblank | hclose
  · exact Option.some.inj hc
  · rw [isBlank_of_isWordChar hd] at hblank
    exact absurd hblank (by decide)
  · simp [closesContainer, ne_of_isWordChar hd (d := ']') rfl,
      ne_of_isWordChar hd (d := '}') rfl] at hclose

/-- **A word of the repaired text stood in the text, perhaps torn.** -/
theorem exists_torn {w text rest : List Char} (hw : ∀ c ∈ w, isWordChar c = true)
    (h : sanitize text = w ++ rest) :
    ∃ written cs, text = written ++ cs ∧ Torn w written ∧ sanitize cs = rest := by
  -- A comment takes no character of the word, so the induction is on the length of the text.
  induction hn : text.length using Nat.strong_induction_on generalizing w text with
  | _ n ih =>
    rcases w with _ | ⟨d, w⟩
    · exact ⟨[], text, rfl, .nil, h⟩
    have hd : isWordChar d = true := hw d List.mem_cons_self
    have hopening := opening text
    cases hopening with
    | nil => exact absurd h (by simp)
    | openLine hbody =>
      rw [sanitize_openLine hbody] at h
      exact absurd h (by simp)
    | line hbody cs =>
      -- The line feed that is left belongs to no word.
      rw [sanitize_line hbody] at h
      obtain ⟨rfl, -⟩ := List.cons.inj h
      exact absurd hd (by decide)
    | openBlock hbody =>
      rw [sanitize_openBlock hbody] at h
      exact absurd h (by simp)
    | @block body hbody cs =>
      rw [sanitize_block hbody] at h
      have hshorter : cs.length < n := by
        simp only [← hn, List.length_cons, List.length_append]
        omega
      obtain ⟨written, cs', rfl, htorn, hrest⟩ := ih cs.length hshorter hw h rfl
      exact ⟨_, cs', by simp, .block hbody htorn, hrest⟩
    | @char c cs hopens =>
      obtain rfl := head_eq_of_isWordChar hopens hd h
      rw [sanitize_char hopens (ne_of_isWordChar hd rfl)
        fun hc ↦ ne_of_isWordChar hd rfl hc.1] at h
      obtain ⟨-, h⟩ := List.cons.inj h
      have hshorter : cs.length < n := by
        rw [← hn, List.length_cons]
        omega
      obtain ⟨written, cs', rfl, htorn, hrest⟩ :=
        ih cs.length hshorter (fun e he ↦ hw e (List.mem_cons_of_mem c he)) h rfl
      exact ⟨c :: written, cs', rfl, .char c htorn, hrest⟩

theorem exists_literal {body : List Char} (hbody : Escaped body) {text rest : List Char}
    (h : dropAhead .inside (dropComments .string text) = body ++ '"' :: rest) :
    ∃ cs, text = body ++ '"' :: cs ∧ sanitize cs = rest := by
  induction hbody generalizing text with
  | nil =>
    rcases text with _ | ⟨c, cs⟩
    · exact absurd h (by simp [dropComments, dropAhead])
    · rw [dropComments, dropAhead] at h
      obtain ⟨rfl, h⟩ := List.cons.inj h
      refine ⟨cs, rfl, ?_⟩
      rw [sanitize_eq]
      exact h
  | plain hquote hslash _ ih =>
    rcases text with _ | ⟨c, cs⟩
    · exact absurd h (by simp [dropComments, dropAhead])
    · rw [dropComments, dropAhead] at h
      obtain ⟨rfl, htail⟩ := List.cons.inj h
      rw [if_neg hslash, if_neg hquote, if_neg hslash, if_neg hquote] at htail
      obtain ⟨cs', rfl, hrest⟩ := ih htail
      exact ⟨cs', rfl, hrest⟩
  | escape e _ ih =>
    rcases text with _ | ⟨c, cs⟩
    · exact absurd h (by simp [dropComments, dropAhead])
    · rw [dropComments, dropAhead] at h
      obtain ⟨rfl, htail⟩ := List.cons.inj h
      rw [if_pos rfl, if_pos rfl] at htail
      rcases cs with _ | ⟨c, cs⟩
      · exact absurd htail (by simp [dropComments, dropAhead])
      · rw [dropComments, dropAhead] at htail
        obtain ⟨rfl, htail'⟩ := List.cons.inj htail
        obtain ⟨cs', rfl, hrest⟩ := ih htail'
        exact ⟨cs', rfl, hrest⟩

theorem Torn.ne_nil {w written : List Char} (h : Torn w written) (hw : w ≠ []) : written ≠ [] := by
  cases h with
  | nil => exact absurd rfl hw
  | char c _ => exact List.cons_ne_nil _ _
  | block _ _ => exact List.cons_ne_nil _ _

/-- **A lexeme of the repaired text stood in the text**, where no comment and no comma to be deleted
comes first. -/
theorem exists_standsAs {l : Lexeme} {t : Token} (hl : l.Denotes t) {c : Char}
    {cs rest : List Char} (hopens : ¬opensComment c cs)
    (hcomma : ¬(c = ',' ∧ bracketFollows cs = true))
    (h : sanitize (c :: cs) = l.chars ++ rest) :
    ∃ written cs', c :: cs = written ++ cs' ∧ written ≠ [] ∧ StandsAs true l written ∧
      sanitize cs' = rest := by
  cases hl with
  | @mark d _ hd =>
    have hquote : c ≠ '"' := by
      rintro rfl
      rw [sanitize_quote] at h
      obtain ⟨rfl, -⟩ := List.cons.inj h
      exact absurd hd (by simp [markToken?])
    rw [sanitize_char hopens hquote hcomma] at h
    obtain ⟨rfl, hrest⟩ := List.cons.inj h
    exact ⟨[c], cs, rfl, List.cons_ne_nil _ _, .whole (.mark c), hrest⟩
  | @literal body s hs =>
    have hquote : c = '"' := by
      by_contra hquote
      rw [sanitize_char hopens hquote hcomma] at h
      exact hquote (List.cons.inj h).1
    subst hquote
    rw [sanitize_quote, Lexeme.chars, List.cons_append, List.append_assoc] at h
    obtain ⟨cs', rfl, hrest⟩ := exists_literal hs.escaped (List.cons.inj h).2
    refine ⟨(Lexeme.literal body).chars, cs', ?_, List.cons_ne_nil _ _, .whole _, hrest⟩
    simp [Lexeme.chars]
  | word hv =>
    obtain ⟨written, cs', htext, htorn, hrest⟩ := exists_torn (isWordChar_of_spellsScalar hv) h
    exact ⟨written, cs', htext, htorn.ne_nil (Scan.ne_nil_of_spellsScalar hv), .torn rfl htorn,
      hrest⟩

theorem exists_sanitize_eq_cons {c : Char} {cs : List Char} (hopens : ¬opensComment c cs)
    (hcomma : ¬(c = ',' ∧ bracketFollows cs = true)) : ∃ rest, sanitize (c :: cs) = c :: rest := by
  by_cases hquote : c = '"'
  · subst hquote
    exact ⟨_, sanitize_quote cs⟩
  · exact ⟨_, sanitize_char hopens hquote hcomma⟩

/-! ## Lexemes with blanks between them

Where one lexeme ends and the next begins is not said by the characters. But the first character of
a lexeme tells its kind, and it is neither a blank nor a slash. -/

theorem eq_nil_of_spaced {ls : List Lexeme} {ts : List Token} (h : Spaced ls [])
    (hden : Denote ls ts) : ls = [] := by
  generalize htext : ([] : List Char) = text at h
  cases h with
  | nil => rfl
  | gap _ _ => exact absurd htext (by simp)
  | lexeme l _ =>
    obtain ⟨t, ts', hl, -, rfl⟩ := List.forall₂_cons_left_iff.mp hden
    exact absurd (List.append_eq_nil_iff.mp htext.symm).1 hl.chars_ne_nil

theorem gap_or_lexeme_of_spaced {ls : List Lexeme} {c : Char} {cs : List Char}
    (h : Spaced ls (c :: cs)) :
    (isGap c = true ∧ Spaced ls cs) ∨
      ∃ l ls' rest, ls = l :: ls' ∧ c :: cs = l.chars ++ rest ∧ Spaced ls' rest := by
  generalize htext : c :: cs = text at h
  cases h with
  | nil => exact absurd htext (by simp)
  | gap hc hrest =>
    obtain ⟨rfl, rfl⟩ := List.cons.inj htext
    exact .inl ⟨hc, hrest⟩
  | lexeme l hrest => exact .inr ⟨l, _, _, rfl, rfl, hrest⟩

/-- **The first character of a lexeme tells its kind.** -/
theorem first_of_denotes {l : Lexeme} {t : Token} (hl : l.Denotes t) {c : Char}
    {cs rest : List Char} (h : c :: cs = l.chars ++ rest) :
    (l = .mark c ∧ markToken? c = some t ∧ cs = rest) ∨ c = '"' ∨
      ∃ w, l = .word (c :: w) ∧ cs = w ++ rest ∧ t.isValue = true ∧
        ∀ d ∈ c :: w, isWordChar d = true := by
  cases hl with
  | mark hd =>
    obtain ⟨rfl, rfl⟩ := List.cons.inj h
    exact .inl ⟨rfl, hd, rfl⟩
  | literal _ => exact .inr (.inl (List.cons.inj h).1)
  | @word w _ hv =>
    rcases w with _ | ⟨d, w⟩
    · exact absurd rfl (Scan.ne_nil_of_spellsScalar hv)
    · obtain ⟨rfl, rfl⟩ := List.cons.inj h
      exact .inr (.inr ⟨w, rfl, rfl, rfl, isWordChar_of_spellsScalar hv⟩)

theorem isBlank_of_denotes {l : Lexeme} {t : Token} (hl : l.Denotes t) {c : Char}
    {cs rest : List Char} (h : c :: cs = l.chars ++ rest) : isBlank c = false := by
  rcases first_of_denotes hl h with ⟨-, hmark, -⟩ | rfl | ⟨w, -, -, -, hw⟩
  · exact isBlank_of_markToken? hmark
  · decide
  · exact isBlank_of_isWordChar (hw c List.mem_cons_self)

theorem ne_slash_of_denotes {l : Lexeme} {t : Token} (hl : l.Denotes t) {c : Char}
    {cs rest : List Char} (h : c :: cs = l.chars ++ rest) : c ≠ '/' := by
  rcases first_of_denotes hl h with ⟨-, hmark, -⟩ | rfl | ⟨w, -, -, -, hw⟩
  · exact ne_of_markToken? hmark rfl
  · decide
  · exact ne_of_isWordChar (hw c List.mem_cons_self) rfl

theorem exists_word_of_isWordChar {l : Lexeme} {t : Token} (hl : l.Denotes t) {c : Char}
    {cs rest : List Char} (hc : isWordChar c = true) (h : c :: cs = l.chars ++ rest) :
    ∃ w, cs = w ++ rest ∧ t.isValue = true ∧ ∀ d ∈ w, isWordChar d = true := by
  rcases first_of_denotes hl h with ⟨-, hmark, -⟩ | rfl | ⟨w, -, hcs, ht, hw⟩
  · exact absurd (isBreak_of_markToken? hmark) (by simp [isBreak_of_isWordChar hc])
  · exact absurd hc (by decide)
  · exact ⟨w, hcs, ht, fun d hd ↦ hw d (List.mem_cons_of_mem c hd)⟩

theorem eq_mark_of_markToken? {l : Lexeme} {t u : Token} (hl : l.Denotes t) {c : Char}
    {cs rest : List Char} (hc : markToken? c = some u) (h : c :: cs = l.chars ++ rest) :
    l = .mark c ∧ t = u ∧ cs = rest := by
  rcases first_of_denotes hl h with ⟨hl, hmark, hcs⟩ | rfl | ⟨w, -, -, -, hw⟩
  · exact ⟨hl, Option.some.inj (hmark.symm.trans hc), hcs⟩
  · exact absurd hc (by simp [markToken?])
  · have hbreak := isBreak_of_isWordChar (hw c List.mem_cons_self)
    exact absurd (isBreak_of_markToken? hc) (by simp [hbreak])

theorem spaced_of_gap {ls : List Lexeme} {ts : List Token} {c : Char} {cs : List Char}
    (h : Spaced ls (c :: cs)) (hden : Denote ls ts) (hc : isGap c = true) : Spaced ls cs := by
  rcases gap_or_lexeme_of_spaced h with ⟨-, hrest⟩ | ⟨l, ls', rest, rfl, htext, -⟩
  · exact hrest
  · obtain ⟨t, ts', hl, -, rfl⟩ := List.forall₂_cons_left_iff.mp hden
    exact absurd (isBlank_of_isGap hc) (by simp [isBlank_of_denotes hl htext])

theorem exists_closing_of_bracketFollows {ls : List Lexeme} {ts : List Token} {text : List Char}
    (h : Spaced ls (sanitize text)) (hden : Denote ls ts) (hfollows : bracketFollows text = true) :
    ∃ m ls', ls = m :: ls' ∧ m.isClosing = true := by
  have hahead := bracketAhead_dropAhead hfollows
  rw [← sanitize_eq, bracketAhead_of_spaced h hden] at hahead
  rcases ls with _ | ⟨m, ls⟩
  · exact absurd hahead (by simp)
  · exact ⟨m, ls, rfl, hahead⟩

/-! ## What is read is an annotation

A comment or a lexeme takes several characters at once, so the induction is on the length of the
text. It carries the lexeme before along, because that is what a comma is added to. -/

theorem isSeparator_of_denotes {l : Lexeme} {t : Token} (h : l.Denotes t) :
    l.isSeparator = t.isSeparator := by
  cases h with
  | @mark c _ hc =>
    unfold markToken? at hc
    split at hc <;> first | (obtain rfl := Option.some.inj hc; rfl) | exact absurd hc (by simp)
  | literal hs => rfl
  | word hv => rfl

/-- Whether a comma before a closing bracket would be one that may be added: there is a lexeme to
add it to, or else no such comma comes next. -/
def Admits (before : Option Lexeme) (ls : List Lexeme) (follows : Bool) : Prop :=
  match before with
  | none => (∀ m, ls.head? = some m → m.isClosing = false) ∨ follows = true
  | some l => ∀ m, ls.head? = some m → m.isClosing = true → l.isSeparator = false

theorem admits_of_isChain {l : Lexeme} {t : Token} {ls : List Lexeme} {ts : List Token}
    (hl : l.Denotes t) (hden : Denote ls ts)
    (hchain : (t :: ts).IsChain fun t u ↦ u.isClosing = true → t.isSeparator = false)
    (follows : Bool) : Admits (some l) ls follows := by
  intro m hm hclosing
  cases hden with
  | nil => exact absurd hm (by simp)
  | @cons m' u ls ts hm' _ =>
    obtain rfl := Option.some.inj hm
    rw [isSeparator_of_denotes hl]
    rw [isClosing_of_denotes hm'] at hclosing
    exact (List.isChain_cons_cons.mp hchain).1 hclosing

/-- **From the repaired text back to the text.** Where repair leaves lexemes with blanks between
them, the text is an annotation of these lexemes. -/
theorem annotated_of_spaced {before : Option Lexeme} {ls : List Lexeme} {ts : List Token}
    {text : List Char} (h : Spaced ls (sanitize text)) (hden : Denote ls ts)
    (hchain : ts.IsChain fun t u ↦ u.isClosing = true → t.isSeparator = false)
    (hbefore : Admits before ls (bracketFollows text)) : Annotated true before ls text := by
  induction hn : text.length using Nat.strong_induction_on generalizing before ls ts text with
  | _ n ih =>
    have hopening := opening text
    cases hopening with
    | nil =>
      obtain rfl := eq_nil_of_spaced h hden
      exact .nil
    | openLine hbody =>
      rw [sanitize_openLine hbody] at h
      obtain rfl := eq_nil_of_spaced h hden
      exact .openLine hbody
    | openBlock hbody =>
      rw [sanitize_openBlock hbody] at h
      obtain rfl := eq_nil_of_spaced h hden
      exact .openBlock hbody
    | @line body hbody cs =>
      have hshorter : cs.length < n := by
        simp only [← hn, List.length_cons, List.length_append]
        omega
      rw [sanitize_line hbody] at h
      rw [bracketFollows_line hbody] at hbefore
      exact .line hbody (ih _ hshorter (spaced_of_gap h hden rfl) hden hchain hbefore rfl)
    | @block body hbody cs =>
      have hshorter : cs.length < n := by
        simp only [← hn, List.length_cons, List.length_append]
        omega
      rw [sanitize_block hbody] at h
      rw [bracketFollows_block hbody] at hbefore
      exact .block hbody (ih _ hshorter h hden hchain hbefore rfl)
    | @char c cs hopens =>
      have hshorter : cs.length < n := by
        rw [← hn, List.length_cons]
        omega
      by_cases hcomma : c = ',' ∧ bracketFollows cs = true
      · -- The comma is deleted. It is the only one here, because a bracket comes next.
        obtain ⟨rfl, hfollows⟩ := hcomma
        rw [sanitize_comma hfollows] at h
        obtain ⟨m, ls', rfl, hm⟩ := exists_closing_of_bracketFollows h hden hfollows
        rcases before with _ | l
        · rw [bracketFollows_comma] at hbefore
          rcases hbefore with hopen | hfalse
          · rw [hopen m rfl] at hm
            exact absurd hm (by decide)
          · exact absurd hfalse (by decide)
        · exact .comma (hbefore m rfl hm) (.inl rfl) hm
            (ih _ hshorter h hden hchain (.inr hfollows) rfl)
      by_cases hgap : isGap c = true
      · rw [sanitize_char hopens (ne_of_isGap hgap rfl) hcomma] at h
        rw [bracketFollows_of_isGap hgap] at hbefore
        exact .gap hgap (ih _ hshorter (spaced_of_gap h hden hgap) hden hchain hbefore rfl)
      · -- What stays and is no blank begins the next lexeme.
        obtain ⟨rest, hkept⟩ := exists_sanitize_eq_cons hopens hcomma
        rw [hkept] at h
        rcases gap_or_lexeme_of_spaced h with ⟨hc, -⟩ | ⟨l, ls', rest', rfl, htext, hrest⟩
        · exact absurd hc hgap
        · obtain ⟨t, ts', hl, hden', rfl⟩ := List.forall₂_cons_left_iff.mp hden
          obtain ⟨written, cs', hwritten, hne, hstands, rfl⟩ :=
            exists_standsAs hl hopens hcomma (hkept.trans htext)
          have hshorter' : cs'.length < n := by
            have hpos := List.length_pos_iff.mpr hne
            rw [← hn, hwritten, List.length_append]
            omega
          rw [hwritten]
          exact .lexeme hstands
            (ih _ hshorter' hrest hden' hchain.tail (admits_of_isChain hl hden' hchain _) rfl)

/-! ## An annotation is read -/

theorem dropComments_torn {w written : List Char} (h : Torn w written)
    (hw : ∀ c ∈ w, isWordChar c = true) (cs : List Char) :
    dropComments .code (written ++ cs) = w ++ dropComments .code cs := by
  induction h with
  | nil => rfl
  | @char c w written _ ih =>
    have hc : isWordChar c = true := hw c List.mem_cons_self
    have hopens : ¬opensComment c (written ++ cs) := fun h' ↦ ne_of_isWordChar hc rfl h'.1
    rw [List.cons_append, dropComments_code_cons hopens, if_neg (ne_of_isWordChar hc rfl),
      ih fun d hd ↦ hw d (List.mem_cons_of_mem c hd)]
    rfl
  | @block w body written hbody _ ih =>
    rw [List.cons_append, List.cons_append, List.append_assoc, List.cons_append, List.cons_append,
      dropComments, dropComments_block hbody, ih hw]

theorem dropComments_standsAs {lax : Bool} {l : Lexeme} {t : Token} {written : List Char}
    (hl : l.Denotes t) (h : StandsAs lax l written) (cs : List Char) :
    dropComments .code (written ++ cs) = l.chars ++ dropComments .code cs := by
  cases h with
  | whole l => exact dropComments_chars hl cs
  | torn _ htorn =>
    cases hl with
    | word hv => exact dropComments_torn htorn (isWordChar_of_spellsScalar hv) cs

theorem sanitize_standsAs {lax : Bool} {l : Lexeme} {t : Token} {written cs : List Char}
    (hl : l.Denotes t) (h : StandsAs lax l written)
    (hcomma : t.isComma = true → bracketFollows cs = false) :
    sanitize (written ++ cs) = l.chars ++ sanitize cs := by
  rw [sanitize_eq, dropComments_standsAs hl h, dropAhead_chars hl hcomma, sanitize_eq]

theorem bracketFollows_of_annotated {lax : Bool} {before : Option Lexeme} {ls : List Lexeme}
    {ts : List Token} {text : List Char} (h : Annotated lax before ls text) (hden : Denote ls ts)
    (hbefore : before = none ∨ ∀ m, ls.head? = some m → m.isClosing = false) :
    bracketFollows text = (ls.head?.map Lexeme.isClosing).getD false := by
  induction h with
  | nil => rfl
  | openLine hbody =>
    rw [bracketFollows, dropComments, dropComments_openLine hbody]
    rfl
  | openBlock hbody =>
    rw [bracketFollows, dropComments, dropComments_openBlock hbody]
    rfl
  | gap hc _ ih => rw [bracketFollows_of_isGap hc, ih hden hbefore]
  | line hbody _ ih => rw [bracketFollows_line hbody, ih hden hbefore]
  | block hbody _ ih => rw [bracketFollows_block hbody, ih hden hbefore]
  | lexeme hstands _ ih =>
    obtain ⟨t, ts', hl, -, rfl⟩ := List.forall₂_cons_left_iff.mp hden
    rw [bracketFollows, dropComments_standsAs hl hstands, bracketAhead_chars hl]
    rfl
  | @comma l m ls cs hl hopen hm _ ih =>
    rcases hbefore with hnone | hnext
    · exact absurd hnone (by simp)
    · rw [hnext m rfl] at hm
      exact absurd hm (by decide)

/-- **Repair undoes annotation.** The induction is on the annotation. -/
theorem spaced_of_annotated {lax : Bool} {before : Option Lexeme} {ls : List Lexeme}
    {ts : List Token} {text : List Char} (h : Annotated lax before ls text) (hden : Denote ls ts)
    (hchain : ts.IsChain Token.MayPrecede) : Spaced ls (sanitize text) := by
  induction h generalizing ts with
  | nil => exact .nil
  | openLine hbody =>
    rw [sanitize_openLine hbody]
    exact .nil
  | openBlock hbody =>
    rw [sanitize_openBlock hbody]
    exact .nil
  | @gap before ls c cs hc _ ih =>
    have hopens : ¬opensComment c cs := fun h' ↦ ne_of_isGap hc rfl h'.1
    rw [sanitize_char hopens (ne_of_isGap hc rfl) fun h' ↦ ne_of_isGap hc rfl h'.1]
    exact .gap hc (ih hden hchain)
  | line hbody _ ih =>
    rw [sanitize_line hbody]
    exact .gap rfl (ih hden hchain)
  | block hbody _ ih =>
    rw [sanitize_block hbody]
    exact ih hden hchain
  | @lexeme before l ls written cs hstands hrest ih =>
    obtain ⟨t, ts', hl, hden', rfl⟩ := List.forall₂_cons_left_iff.mp hden
    have hcomma : t.isComma = true → bracketFollows cs = false := by
      intro ht
      have hopen := isClosing_head?_of_isComma hden' hchain ht
      rw [bracketFollows_of_annotated hrest hden' (.inr hopen)]
      cases ls with
      | nil => rfl
      | cons m ls => exact hopen m rfl
    rw [sanitize_standsAs hl hstands hcomma]
    exact .lexeme l (ih hden' hchain.tail)
  | comma hl hopen hm hrest ih =>
    rw [sanitize_comma ((bracketFollows_of_annotated hrest hden (.inl rfl)).trans hm)]
    exact ih hden hchain

/-! ## The texts that are read -/

theorem isClosing_head?_of_read {ls : List Lexeme} {ts : List Token} {v : Json}
    (hden : Denote ls ts) (hread : Reader.initial.read ts = some v) :
    ∀ m, ls.head? = some m → m.isClosing = false := by
  intro m hm
  cases hden with
  | nil => exact absurd hm (by simp)
  | cons hm' _ =>
    obtain rfl := Option.some.inj hm
    rw [isClosing_of_denotes hm']
    exact Reader.isClosing_of_read_initial hread

theorem parse_eq_ok_iff_sanitize {text : List Char} {v : Json} :
    parse text = .ok v ↔ Json.parse (sanitize text) = .ok v := by
  rw [parse]
  cases Json.parse (sanitize text) with
  | ok w => simp [Except.mapError]
  | error f => simp [Except.mapError]

/-- **What is read as a configuration.** A text is read as a value exactly when it is the lexemes of
a JSON text that denotes the value, with blanks and comments between them and perhaps one more comma
at the end of each container. A block comment may also tear a word, and the comma may also stand in
a container that is empty. -/
theorem parse_eq_ok_iff_annotated {text : List Char} {v : Json} :
    parse text = .ok v ↔
      ∃ strict, Json.parse strict = .ok v ∧ Spaced (lexemes strict) strict ∧
        Denote (lexemes strict) (tokenValues strict) ∧
        Annotated true none (lexemes strict) text := by
  constructor
  · intro h
    have hstrict := parse_eq_ok_iff_sanitize.mp h
    have hread := Json.parse_eq_ok_iff.mp hstrict
    obtain ⟨hspaced, hden⟩ := denote_lexemes hstrict
    refine ⟨sanitize text, hstrict, hspaced, hden, ?_⟩
    exact annotated_of_spaced hspaced hden (Reader.isChain_isSeparator hread)
      (.inl (isClosing_head?_of_read hden hread))
  · rintro ⟨strict, hstrict, -, hden, hannotated⟩
    have hread := Json.parse_eq_ok_iff.mp hstrict
    have hchain := Reader.isChain_mayPrecede hread
    have htokens : tokenValues (sanitize text) = tokenValues strict :=
      run_of_spaced (spaced_of_annotated hannotated hden hchain) hden hchain 0
    rw [parse_eq_ok_iff_sanitize, Json.parse_eq_ok_iff, htokens]
    exact hread

/-! ## Texts that are read and are no strict annotation

That a text is no annotation, whatever the lexemes, is shown by taking it apart from the front.
Strictly there is one way to do that, and what comes of it has neighbours that no document has. -/

theorem exists_lexeme_of_annotated {before : Option Lexeme} {ls : List Lexeme} {c : Char}
    {cs : List Char} (h : Annotated false before ls (c :: cs)) (hgap : isGap c = false)
    (hslash : c ≠ '/') (hcomma : c = ',' → ∀ l, before = some l → l.isOpening = true) :
    ∃ l ls' rest, ls = l :: ls' ∧ c :: cs = l.chars ++ rest ∧
      Annotated false (some l) ls' rest := by
  generalize htext : c :: cs = text at h
  cases h with
  | nil => exact absurd htext (by simp)
  | openLine _ | openBlock _ | line _ _ | block _ _ => exact absurd (List.cons.inj htext).1 hslash
  | gap hc _ =>
    obtain ⟨rfl, -⟩ := List.cons.inj htext
    rw [hc] at hgap
    exact absurd hgap (by decide)
  | lexeme hstands hrest =>
    cases hstands with
    | whole => exact ⟨_, _, _, rfl, rfl, hrest⟩
    | torn hlax _ => exact absurd hlax (by decide)
  | comma hl hopen hm _ =>
    obtain ⟨rfl, -⟩ := List.cons.inj htext
    rcases hopen with hlax | hopen
    · exact absurd hlax (by decide)
    · rw [hcomma rfl _ rfl] at hopen
      exact absurd hopen (by decide)

theorem annotated_behind_block {before : Option Lexeme} {ls : List Lexeme} {ts : List Token}
    {cs : List Char} (h : Annotated false before ls ('/' :: '*' :: '*' :: '/' :: cs))
    (hden : Denote ls ts) : Annotated false before ls cs := by
  generalize htext : '/' :: '*' :: '*' :: '/' :: cs = text at h
  cases h with
  | nil => exact absurd htext (by simp)
  | openLine _ | line _ _ => exact absurd (List.cons.inj (List.cons.inj htext).2).1 (by decide)
  | openBlock hbody =>
    obtain rfl := (List.cons.inj (List.cons.inj htext).2).2
    exact absurd ⟨[], cs, rfl⟩ hbody
  | gap hc _ =>
    obtain ⟨rfl, -⟩ := List.cons.inj htext
    exact absurd hc (by decide)
  | @block _ _ body cs' hbody hrest =>
    -- The comment cannot end later than where it is first closed.
    have hclosed := (List.cons.inj (List.cons.inj htext).2).2
    rcases body with _ | ⟨d, _ | ⟨e, body⟩⟩
    · obtain rfl := (List.cons.inj (List.cons.inj hclosed).2).2
      exact hrest
    · exact absurd (List.cons.inj (List.cons.inj hclosed).2).1 (by decide)
    · obtain ⟨rfl, htail⟩ := List.cons.inj hclosed
      obtain ⟨rfl, -⟩ := List.cons.inj htail
      exact absurd ⟨[], body, rfl⟩ hbody
  | lexeme hstands _ =>
    obtain ⟨t, ts', hl, -, rfl⟩ := List.forall₂_cons_left_iff.mp hden
    cases hstands with
    | whole => exact absurd rfl (ne_slash_of_denotes hl htext)
    | torn hlax _ => exact absurd hlax (by decide)
  | comma _ _ _ _ => exact absurd (List.cons.inj htext).1 (by decide)

/-- Strictly, `1/**/2` is two numerals. -/
theorem not_isChain_of_torn {ls : List Lexeme} {ts : List Token}
    (h : Annotated false none ls ['1', '/', '*', '*', '/', '2']) (hden : Denote ls ts) :
    ¬ts.IsChain Token.MayPrecede := by
  obtain ⟨l, ls', rest, rfl, htext, hrest⟩ := exists_lexeme_of_annotated h rfl (by decide) (by simp)
  obtain ⟨t, ts', hl, hden', rfl⟩ := List.forall₂_cons_left_iff.mp hden
  obtain ⟨w, hw, ht, hchars⟩ := exists_word_of_isWordChar hl (by decide) htext
  -- The first word ends before the slash.
  rcases w with _ | ⟨d, w⟩
  · subst hw
    obtain ⟨m, ls'', rest', rfl, htext', -⟩ :=
      exists_lexeme_of_annotated (annotated_behind_block hrest hden') rfl (by decide) (by simp)
    obtain ⟨u, ts'', hm, -, rfl⟩ := List.forall₂_cons_left_iff.mp hden'
    obtain ⟨-, -, hu, -⟩ := exists_word_of_isWordChar hm (by decide) htext'
    exact fun hchain ↦ (List.isChain_cons_cons.mp hchain).1.1 ⟨ht, hu⟩
  · obtain ⟨rfl, -⟩ := List.cons.inj hw
    exact absurd (hchars '/' List.mem_cons_self) (by decide)

/-- Strictly, the comma of `[,]` is no added one. -/
theorem not_isChain_of_lone_comma {ls : List Lexeme} {ts : List Token}
    (h : Annotated false none ls ['[', ',', ']']) (hden : Denote ls ts) :
    ¬ts.IsChain Token.MayPrecede := by
  have hopening : ∀ l, some (Lexeme.mark '[') = some l → l.isOpening = true := by
    rintro l ⟨rfl⟩
    rfl
  obtain ⟨l, ls₁, rest, rfl, htext, h₁⟩ := exists_lexeme_of_annotated h rfl (by decide) (by simp)
  obtain ⟨t, ts₁, hl, hden₁, rfl⟩ := List.forall₂_cons_left_iff.mp hden
  obtain ⟨rfl, rfl, rfl⟩ := eq_mark_of_markToken? hl (u := .openArray) rfl htext
  obtain ⟨m, ls₂, rest, rfl, htext, h₂⟩ :=
    exists_lexeme_of_annotated h₁ rfl (by decide) fun _ ↦ hopening
  obtain ⟨u, ts₂, hm, hden₂, rfl⟩ := List.forall₂_cons_left_iff.mp hden₁
  obtain ⟨rfl, rfl, rfl⟩ := eq_mark_of_markToken? hm (u := .comma) rfl htext
  obtain ⟨n, ls₃, rest, rfl, htext, -⟩ := exists_lexeme_of_annotated h₂ rfl (by decide) (by simp)
  obtain ⟨w, ts₃, hn, -, rfl⟩ := List.forall₂_cons_left_iff.mp hden₂
  obtain ⟨rfl, rfl, -⟩ := eq_mark_of_markToken? hn (u := .closeArray) rfl htext
  -- So a comma stands right before a closing bracket.
  exact fun hchain ↦ (List.isChain_cons_cons.mp hchain.tail).1.2 ⟨rfl, rfl⟩

/-- **What is read is more than the strict annotations.** A comment within a numeral joins its
halves, and a comma may stand alone between brackets. -/
theorem lax_annotations_are_read :
    (parse ['1', '/', '*', '*', '/', '2'] = .ok (.number (.int 12)) ∧
      ¬∃ strict, Json.parse strict = .ok (.number (.int 12)) ∧
        Annotated false none (lexemes strict) ['1', '/', '*', '*', '/', '2']) ∧
    parse ['[', ',', ']'] = .ok (.array []) ∧
      ¬∃ strict, Json.parse strict = .ok (.array []) ∧
        Annotated false none (lexemes strict) ['[', ',', ']'] := by
  refine ⟨⟨rfl, ?_⟩, rfl, ?_⟩
  · rintro ⟨strict, hstrict, hannotated⟩
    exact not_isChain_of_torn hannotated (denote_lexemes hstrict).2
      (Reader.isChain_mayPrecede (Json.parse_eq_ok_iff.mp hstrict))
  · rintro ⟨strict, hstrict, hannotated⟩
    exact not_isChain_of_lone_comma hannotated (denote_lexemes hstrict).2
      (Reader.isChain_mayPrecede (Json.parse_eq_ok_iff.mp hstrict))

end BarBridge.Jsonc
