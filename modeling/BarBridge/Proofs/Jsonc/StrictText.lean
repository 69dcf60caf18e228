import BarBridge.Proofs.Jsonc.Decoration

/-!
# Repair leaves JSON alone

Repair is meant for texts that are not JSON yet. On a text that is read as it stands it does
nothing, whatever the strings of the text hold: slashes, stars, and commas before brackets are only
looked for outside them (`sanitize_of_parse`).

Two facts about such a text carry this, and both come from its being cut into lexemes. Outside its
literals there is no slash, so the first pass finds no comment; and what follows a comma is the
beginning of a value or a key, so the second pass finds no comma to delete. The second fact is about
neighbouring tokens and needs the text to be read; the first holds of any text made of lexemes.
-/

namespace BarBridge.Jsonc

open Json

theorem decorated_of_spaced {ls : List Lexeme} {text : List Char} (h : Spaced ls text)
    (before : Option Lexeme) : Decorated before ls text := by
  induction h generalizing before with
  | nil => exact .nil
  | gap hc _ ih => exact .gap hc (ih before)
  | lexeme l _ ih => exact .lexeme l (ih (some l))

theorem dropComments_of_spaced {ls : List Lexeme} {ts : List Token} {text : List Char}
    (h : Spaced ls text) (hden : Denote ls ts) : dropComments .code text = text := by
  induction h generalizing ts with
  | nil => rfl
  | gap hc _ ih => rw [dropComments_of_isGap hc, ih hden]
  | lexeme l _ ih =>
    obtain ⟨t, ts', hl, hden', rfl⟩ := List.forall₂_cons_left_iff.mp hden
    rw [dropComments_chars hl, ih hden']

theorem bracketAhead_of_spaced {ls : List Lexeme} {ts : List Token} {text : List Char}
    (h : Spaced ls text) (hden : Denote ls ts) :
    bracketAhead text = (ls.head?.map Lexeme.isClosing).getD false := by
  have hahead := bracketAhead_of_decorated (decorated_of_spaced h none) hden (.inl rfl)
  rwa [dropComments_of_spaced h hden] at hahead

theorem dropAhead_of_spaced {ls : List Lexeme} {ts : List Token} {text : List Char}
    (h : Spaced ls text) (hden : Denote ls ts) (hchain : ts.IsChain Token.MayPrecede) :
    dropAhead .outside text = text := by
  induction h generalizing ts with
  | nil => rfl
  | gap hc _ ih => rw [dropAhead_of_isGap hc, ih hden hchain]
  | @lexeme l ls cs hrest ih =>
    obtain ⟨t, ts', hl, hden', rfl⟩ := List.forall₂_cons_left_iff.mp hden
    have hcomma : t.isComma = true → bracketAhead cs = false := by
      intro ht
      have hopen := isClosing_head?_of_isComma hden' hchain ht
      rw [bracketAhead_of_spaced hrest hden']
      cases ls with
      | nil => rfl
      | cons m ls => exact hopen m rfl
    rw [dropAhead_chars hl hcomma, ih hden' hchain.tail]

/-- **Repair leaves JSON alone.** A text that is read strictly is its own repair, so reading it as a
configuration makes no difference. -/
theorem sanitize_of_parse {text : List Char} {v : Json} (h : Json.parse text = .ok v) :
    sanitize text = text ∧ parse text = .ok v := by
  obtain ⟨hspaced, hden⟩ := denote_lexemes h
  have hchain : (tokenValues text).IsChain Token.MayPrecede :=
    Reader.isChain_mayPrecede (parse_eq_ok_iff.mp h)
  have hsame : sanitize text = text := by
    rw [sanitize_eq, dropComments_of_spaced hspaced hden, dropAhead_of_spaced hspaced hden hchain]
  refine ⟨hsame, ?_⟩
  rw [parse, hsame, h]
  rfl

/-- A list whose strings look like a comment, like a dangling comma, and end in a backslash. -/
theorem sanitize_of_parse_array :
    Json.parse "[\"/*\", \",]\" ,\"\\\\\" ]".toList =
        .ok (.array [.string "/*", .string ",]", .string "\\"]) ∧
      sanitize "[\"/*\", \",]\" ,\"\\\\\" ]".toList = "[\"/*\", \",]\" ,\"\\\\\" ]".toList ∧
      parse "[\"/*\", \",]\" ,\"\\\\\" ]".toList =
        .ok (.array [.string "/*", .string ",]", .string "\\"]) := by
  have h : Json.parse "[\"/*\", \",]\" ,\"\\\\\" ]".toList =
      .ok (.array [.string "/*", .string ",]", .string "\\"]) := by rfl
  exact ⟨h, sanitize_of_parse h⟩

end BarBridge.Jsonc
