import BarBridge.Proofs.Json.Lexemes
import BarBridge.Proofs.Jsonc.Segments
import BarBridge.Proofs.Text.Trimming

/-!
# Decorated texts

Someone who writes a configuration by hand takes a JSON text, puts blanks and comments wherever a
blank may stand, and leaves a comma behind the last item of a container. Such a decoration keeps the
lexemes and their order, and nothing else. The main statement is that reading undoes it: a decorated
text is read as the value of the text that was decorated, `parse_of_decorated`.

## Why the passes find their way

After the first pass the comments are gone and the lexemes stand as they stood. What a comma has
ahead of it is then settled by the lexeme that comes next (`bracketAhead_of_decorated`): behind a
comma of the text this is never a closing bracket, because the text was read; behind an added comma
it always is. So the second pass takes back the added commas and no other, and leaves lexemes with
blanks between them.
-/

namespace BarBridge.Jsonc

open Json Text

/-- `Decorated before ls text` says that `text` is the lexemes `ls` with blanks and comments before,
between and behind them, and perhaps one more comma at the end of a container that is not empty.
The lexeme `before` is the last one in front of `text`; there is none where no comma may be
added. -/
inductive Decorated : Option Lexeme → List Lexeme → List Char → Prop where
  | nil {before : Option Lexeme} : Decorated before [] []
  /-- A line comment that the text ends with. -/
  | openLine {before : Option Lexeme} {body : List Char} (hbody : '\n' ∉ body) :
      Decorated before [] ('/' :: '/' :: body)
  | gap {before : Option Lexeme} {ls : List Lexeme} {c : Char} {cs : List Char}
      (hc : isGap c = true) : Decorated before ls cs → Decorated before ls (c :: cs)
  | line {before : Option Lexeme} {ls : List Lexeme} {body cs : List Char} (hbody : '\n' ∉ body) :
      Decorated before ls cs → Decorated before ls ('/' :: '/' :: (body ++ '\n' :: cs))
  | block {before : Option Lexeme} {ls : List Lexeme} {body cs : List Char}
      (hbody : ¬['*', '/'] <:+: body) :
      Decorated before ls cs → Decorated before ls ('/' :: '*' :: (body ++ '*' :: '/' :: cs))
  | lexeme {before : Option Lexeme} (l : Lexeme) {ls : List Lexeme} {cs : List Char} :
      Decorated (some l) ls cs → Decorated before (l :: ls) (l.chars ++ cs)
  /-- A comma that is added. -/
  | comma {l m : Lexeme} {ls : List Lexeme} {cs : List Char} (hl : l.isOpening = false)
      (hm : m.isClosing = true) :
      Decorated none (m :: ls) cs → Decorated (some l) (m :: ls) (',' :: cs)

/-! ## Comments -/

theorem dropComments_line {body : List Char} (h : '\n' ∉ body) (cs : List Char) :
    dropComments .line (body ++ '\n' :: cs) = '\n' :: dropComments .code cs := by
  induction body with
  | nil => rw [List.nil_append, dropComments, if_pos rfl]
  | cons c body ih =>
    rw [List.mem_cons, not_or] at h
    rw [List.cons_append, dropComments, if_neg (Ne.symm h.1), ih h.2]

theorem dropComments_openLine {body : List Char} (h : '\n' ∉ body) :
    dropComments .line body = [] := by
  induction body with
  | nil => rfl
  | cons c body ih =>
    rw [List.mem_cons, not_or] at h
    rw [dropComments, if_neg (Ne.symm h.1), ih h.2]

theorem dropComments_block_cons {c : Char} {cs : List Char}
    (h : ¬(c = '*' ∧ cs.head? = some '/')) :
    dropComments .block (c :: cs) = dropComments .block cs := by
  rw [dropComments]
  rintro cs' rfl rfl
  exact h ⟨rfl, rfl⟩

theorem dropComments_block {body : List Char} (h : ¬['*', '/'] <:+: body) (cs : List Char) :
    dropComments .block (body ++ '*' :: '/' :: cs) = dropComments .code cs := by
  induction body with
  | nil => rw [List.nil_append, dropComments]
  | cons c body ih =>
    -- A comment that ended here would end with a slash of the body, behind a star of the body.
    have hend : ¬(c = '*' ∧ (body ++ '*' :: '/' :: cs).head? = some '/') := by
      rintro ⟨rfl, hhead⟩
      cases body with
      | nil => exact absurd hhead (by simp)
      | cons d body =>
        obtain rfl : d = '/' := Option.some.inj hhead
        exact h ⟨[], body, rfl⟩
    rw [List.cons_append, dropComments_block_cons hend]
    exact ih fun hinfix ↦ h (List.infix_cons hinfix)

/-! ## Lexemes pass through

There are two kinds of text that a pass leaves alone, one that holds none of the characters it looks
for, and the inside of a literal. Every lexeme but a comma is of one of these kinds, for either
pass. -/

theorem isVisible_of_isWordChar {c : Char} (h : isWordChar c = true) : IsVisible c := by
  rw [isWordChar, Bool.or_eq_true] at h
  rcases h with h | h
  · exact isVisible_of_isDigit h
  · have hall : ['+', '-', '.', 'E', 'a', 'e', 'f', 'l', 'n', 'r', 's', 't', 'u'].all
        (fun d ↦ decide (IsVisible d)) = true := by decide
    exact of_decide_eq_true (List.all_eq_true.mp hall c (List.contains_iff_mem.mp h))

theorem isBlank_of_isWordChar {c : Char} (h : isWordChar c = true) : isBlank c = false :=
  (isVisible_of_isWordChar h).isBlank

theorem dropComments_code_append {w : List Char} (h : ∀ c ∈ w, c ≠ '/' ∧ c ≠ '"')
    (cs : List Char) : dropComments .code (w ++ cs) = w ++ dropComments .code cs := by
  induction w with
  | nil => rfl
  | cons c w ih =>
    obtain ⟨hslash, hquote⟩ := h c List.mem_cons_self
    have hopens : ¬opensComment c (w ++ cs) := fun hc ↦ hslash hc.1
    rw [List.cons_append, dropComments_code_cons hopens, if_neg hquote,
      ih fun d hd ↦ h d (List.mem_cons_of_mem c hd)]
    rfl

theorem dropComments_string {body : List Char} (h : Escaped body) (cs : List Char) :
    dropComments .string (body ++ '"' :: cs) = body ++ '"' :: dropComments .code cs := by
  induction h with
  | nil => rfl
  | plain hquote hslash _ ih =>
    rw [List.cons_append, dropComments, if_neg hslash, if_neg hquote, ih]
    rfl
  | escape c _ ih =>
    rw [List.cons_append, List.cons_append, dropComments, if_pos rfl, dropComments, ih]
    rfl

theorem dropAhead_outside_append {w : List Char} (h : ∀ c ∈ w, c ≠ ',' ∧ c ≠ '"')
    (cs : List Char) : dropAhead .outside (w ++ cs) = w ++ dropAhead .outside cs := by
  induction w with
  | nil => rfl
  | cons c w ih =>
    obtain ⟨hcomma, hquote⟩ := h c List.mem_cons_self
    rw [List.cons_append, dropAhead, if_neg fun hc ↦ hcomma hc.1, if_neg hquote,
      ih fun d hd ↦ h d (List.mem_cons_of_mem c hd)]
    rfl

theorem dropAhead_inside {body : List Char} (h : Escaped body) (cs : List Char) :
    dropAhead .inside (body ++ '"' :: cs) = body ++ '"' :: dropAhead .outside cs := by
  induction h with
  | nil => rfl
  | plain hquote hslash _ ih =>
    rw [List.cons_append, dropAhead, if_neg hslash, if_neg hquote, ih]
    rfl
  | escape c _ ih =>
    rw [List.cons_append, List.cons_append, dropAhead, if_pos rfl, dropAhead, ih]
    rfl

theorem ne_of_isWordChar {c d : Char} (h : isWordChar c = true) (hd : isWordChar d = false) :
    c ≠ d := by
  rintro rfl
  rw [h] at hd
  exact absurd hd (by decide)

theorem ne_of_markToken? {c d : Char} {t : Token} (h : markToken? c = some t)
    (hd : markToken? d = none) : c ≠ d := by
  rintro rfl
  rw [h] at hd
  exact absurd hd (by simp)

theorem isBlank_of_markToken? {c : Char} {t : Token} (h : markToken? c = some t) :
    isBlank c = false := by
  have hmark := isSome_markToken?.mp (Option.isSome_of_eq_some h)
  rcases hmark with rfl | rfl | rfl | rfl | rfl | rfl <;> decide

theorem ne_of_isGap {c d : Char} (h : isGap c = true) (hd : isGap d = false) : c ≠ d := by
  rintro rfl
  rw [h] at hd
  exact absurd hd (by decide)

theorem dropComments_of_isGap {c : Char} (h : isGap c = true) (cs : List Char) :
    dropComments .code (c :: cs) = c :: dropComments .code cs := by
  have hopens : ¬opensComment c cs := fun hc ↦ ne_of_isGap h rfl hc.1
  rw [dropComments_code_cons hopens, if_neg (ne_of_isGap h rfl)]

theorem dropAhead_of_isGap {c : Char} (h : isGap c = true) (cs : List Char) :
    dropAhead .outside (c :: cs) = c :: dropAhead .outside cs := by
  rw [dropAhead, if_neg fun hc ↦ ne_of_isGap h rfl hc.1, if_neg (ne_of_isGap h rfl)]

theorem dropComments_chars {l : Lexeme} {t : Token} (h : l.Denotes t) (cs : List Char) :
    dropComments .code (l.chars ++ cs) = l.chars ++ dropComments .code cs := by
  cases h with
  | @mark c _ hc =>
    refine dropComments_code_append (fun d hd ↦ ?_) cs
    obtain rfl := List.mem_singleton.mp hd
    exact ⟨ne_of_markToken? hc rfl, ne_of_markToken? hc rfl⟩
  | @literal body s hs =>
    have hquote : ¬opensComment '"' (body ++ '"' :: cs) := fun h ↦ absurd h.1 (by decide)
    rw [Lexeme.chars, List.cons_append, List.append_assoc, List.cons_append, List.nil_append,
      dropComments_code_cons hquote, if_pos rfl, dropComments_string hs.escaped]
    simp
  | word hv =>
    refine dropComments_code_append (fun d hd ↦ ?_) cs
    have hd := isWordChar_of_spellsScalar hv d hd
    exact ⟨ne_of_isWordChar hd rfl, ne_of_isWordChar hd rfl⟩

theorem dropAhead_chars {l : Lexeme} {t : Token} (h : l.Denotes t) {cs : List Char}
    (hcomma : t.isComma = true → bracketAhead cs = false) :
    dropAhead .outside (l.chars ++ cs) = l.chars ++ dropAhead .outside cs := by
  cases h with
  | @mark c _ hc =>
    have hkept : ¬(c = ',' ∧ bracketAhead cs = true) := by
      rintro ⟨rfl, hahead⟩
      obtain rfl := Option.some.inj hc
      rw [hcomma rfl] at hahead
      exact absurd hahead (by decide)
    rw [Lexeme.chars, List.cons_append, List.nil_append, dropAhead, if_neg hkept,
      if_neg (ne_of_markToken? hc rfl)]
    rfl
  | @literal body s hs =>
    have hquote : ¬('"' = ',' ∧ bracketAhead (body ++ '"' :: cs) = true) :=
      fun h ↦ absurd h.1 (by decide)
    rw [Lexeme.chars, List.cons_append, List.append_assoc, List.cons_append, List.nil_append,
      dropAhead, if_neg hquote, if_pos rfl, dropAhead_inside hs.escaped]
    simp
  | word hv =>
    refine dropAhead_outside_append (fun d hd ↦ ?_) cs
    have hd := isWordChar_of_spellsScalar hv d hd
    exact ⟨ne_of_isWordChar hd rfl, ne_of_isWordChar hd rfl⟩

/-! ## What is ahead -/

theorem isClosing_of_denotes {l : Lexeme} {t : Token} (h : l.Denotes t) :
    l.isClosing = t.isClosing := by
  cases h with
  | @mark c _ hc =>
    unfold markToken? at hc
    split at hc <;> first | (obtain rfl := Option.some.inj hc; rfl) | exact absurd hc (by simp)
  | literal hs => rfl
  | word hv => rfl

theorem isClosing_head?_of_isComma {ls : List Lexeme} {t : Token} {ts : List Token}
    (hden : Denote ls ts) (hchain : (t :: ts).IsChain Token.MayPrecede) (ht : t.isComma = true) :
    ∀ m, ls.head? = some m → m.isClosing = false := by
  intro m hm
  cases hden with
  | nil => exact absurd hm (by simp)
  | @cons m' u ls ts hm' _ =>
    obtain rfl := Option.some.inj hm
    have hpair := (List.isChain_cons_cons.mp hchain).1
    rw [isClosing_of_denotes hm']
    exact Bool.eq_false_iff.mpr fun hu ↦ hpair.2 ⟨ht, hu⟩

theorem bracketAhead_chars {l : Lexeme} {t : Token} (h : l.Denotes t) (cs : List Char) :
    bracketAhead (l.chars ++ cs) = l.isClosing := by
  cases h with
  | mark hc => exact bracketAhead_cons (isBlank_of_markToken? hc) cs
  | literal hs => exact bracketAhead_cons (by decide) _
  | @word w _ hv =>
    cases w with
    | nil => exact absurd rfl (Scan.ne_nil_of_spellsScalar hv)
    | cons c w =>
      have hc := isWordChar_of_spellsScalar hv c List.mem_cons_self
      rw [Lexeme.chars, List.cons_append, bracketAhead_cons (isBlank_of_isWordChar hc)]
      simp [closesContainer, Lexeme.isClosing, ne_of_isWordChar hc (d := ']') rfl,
        ne_of_isWordChar hc (d := '}') rfl]

/-- **What has a bracket ahead.** Without comments, and unless a comma has been added first, this is
what the next lexeme says. -/
theorem bracketAhead_of_decorated {before : Option Lexeme} {ls : List Lexeme} {ts : List Token}
    {text : List Char} (h : Decorated before ls text) (hden : Denote ls ts)
    (hbefore : before = none ∨ ∀ m, ls.head? = some m → m.isClosing = false) :
    bracketAhead (dropComments .code text) = (ls.head?.map Lexeme.isClosing).getD false := by
  induction h with
  | nil => rfl
  | openLine hbody =>
    rw [dropComments, dropComments_openLine hbody]
    rfl
  | gap hc _ ih =>
    rw [dropComments_of_isGap hc, bracketAhead_cons_blank (isBlank_of_isGap hc), ih hden hbefore]
  | line hbody _ ih =>
    rw [dropComments, dropComments_line hbody, bracketAhead_cons_blank (by decide),
      ih hden hbefore]
  | block hbody _ ih => rw [dropComments, dropComments_block hbody, ih hden hbefore]
  | lexeme l _ ih =>
    -- What is ahead is settled here, whatever stands behind the lexeme.
    obtain ⟨t, ts', hl, -, rfl⟩ := List.forall₂_cons_left_iff.mp hden
    rw [dropComments_chars hl, bracketAhead_chars hl]
    rfl
  | @comma l m ls cs hl hm _ ih =>
    rcases hbefore with hnone | hopen
    · exact absurd hnone (by simp)
    · rw [hopen m rfl] at hm
      exact absurd hm (by decide)

/-! ## Reading a decorated text -/

/-- **Repair leaves the lexemes with blanks between them.** The induction is on the decoration. -/
theorem spaced_of_decorated {before : Option Lexeme} {ls : List Lexeme} {ts : List Token}
    {text : List Char} (h : Decorated before ls text) (hden : Denote ls ts)
    (hchain : ts.IsChain Token.MayPrecede) :
    Spaced ls (dropAhead .outside (dropComments .code text)) := by
  induction h generalizing ts with
  | nil => exact .nil
  | openLine hbody =>
    rw [dropComments, dropComments_openLine hbody]
    exact .nil
  | gap hc _ ih =>
    rw [dropComments_of_isGap hc, dropAhead_of_isGap hc]
    exact .gap hc (ih hden hchain)
  | @line before ls body cs hbody _ ih =>
    -- Of a line comment the line feed is left, and that is a blank.
    have hfeed : ¬('\n' = ',' ∧ bracketAhead (dropComments .code cs) = true) :=
      fun h' ↦ absurd h'.1 (by decide)
    rw [dropComments, dropComments_line hbody, dropAhead, if_neg hfeed, if_neg (by decide)]
    exact .gap rfl (ih hden hchain)
  | block hbody _ ih =>
    rw [dropComments, dropComments_block hbody]
    exact ih hden hchain
  | @lexeme before l ls cs hrest ih =>
    obtain ⟨t, ts', hl, hden', rfl⟩ := List.forall₂_cons_left_iff.mp hden
    -- A comma of the text is not deleted, because no closing bracket stood behind it.
    have hcomma : t.isComma = true → bracketAhead (dropComments .code cs) = false := by
      intro ht
      have hopen := isClosing_head?_of_isComma hden' hchain ht
      rw [bracketAhead_of_decorated hrest hden' (.inr hopen)]
      cases ls with
      | nil => rfl
      | cons m ls => exact hopen m rfl
    rw [dropComments_chars hl, dropAhead_chars hl hcomma]
    exact .lexeme l (ih hden' hchain.tail)
  | @comma l m ls cs hl hm hrest ih =>
    -- An added comma is deleted, because the next lexeme is a closing bracket.
    have hopens : ¬opensComment ',' cs := fun h' ↦ absurd h'.1 (by decide)
    have hahead : bracketAhead (dropComments .code cs) = true := by
      rw [bracketAhead_of_decorated hrest hden (.inl rfl)]
      exact hm
    rw [dropComments_code_cons hopens, if_neg (by decide), dropAhead, if_pos ⟨rfl, hahead⟩]
    exact ih hden hchain

theorem sanitize_eq (text : List Char) :
    sanitize text = dropAhead .outside (dropComments .code text) :=
  stripTrailingCommas_eq_dropAhead _

/-- **Reading undoes decoration.** A text that is read consists of its lexemes, which denote its
tokens; every decoration of these lexemes is read as the same value. -/
theorem parse_of_decorated {text : List Char} {v : Json} (h : Json.parse text = .ok v) :
    Spaced (lexemes text) text ∧ Denote (lexemes text) (tokenValues text) ∧
      ∀ text', Decorated none (lexemes text) text' → parse text' = .ok v := by
  obtain ⟨hspaced, hden⟩ := denote_lexemes h
  refine ⟨hspaced, hden, fun text' hdecorated ↦ ?_⟩
  have hchain : (tokenValues text).IsChain Token.MayPrecede :=
    Reader.isChain_mayPrecede (parse_eq_ok_iff.mp h)
  have hclean : Spaced (lexemes text) (sanitize text') := by
    rw [sanitize_eq]
    exact spaced_of_decorated hdecorated hden hchain
  have htokens : tokenValues (sanitize text') = tokenValues text :=
    run_of_spaced hclean hden hchain 0
  have hread : Json.parse (sanitize text') = .ok v := by
    rw [parse_eq_ok_iff, htokens]
    exact parse_eq_ok_iff.mp h
  rw [parse, hread]
  rfl

/-- A comment that holds a bracket, a literal that looks like a comment, and an added comma. -/
theorem parse_of_decorated_array :
    Json.parse ['[', '1', ',', '"', '/', '/', '"', ']'] =
        .ok (.array [.number (.int 1), .string "//"]) ∧
      parse ['[', '1', '/', '*', ']', '*', '/', ',', '"', '/', '/', '"', ' ', ',', ']', '/', '/'] =
        .ok (.array [.number (.int 1), .string "//"]) := by
  have h : Json.parse ['[', '1', ',', '"', '/', '/', '"', ']'] =
      .ok (.array [.number (.int 1), .string "//"]) := rfl
  have hcomment : ¬['*', '/'] <:+: [']'] := by decide
  refine ⟨h, (parse_of_decorated h).2.2 _ ?_⟩
  refine .lexeme (.mark '[') (.lexeme (.word ['1']) (.block hcomment (.lexeme (.mark ',') ?_)))
  refine .lexeme (.literal ['/', '/']) (.gap rfl (.comma rfl rfl ?_))
  exact .lexeme (.mark ']') (.openLine (by simp))

end BarBridge.Jsonc
