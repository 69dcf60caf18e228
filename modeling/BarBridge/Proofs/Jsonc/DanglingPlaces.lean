import BarBridge.Proofs.Json.Lexemes
import BarBridge.Proofs.Jsonc.DanglingCommas
import Mathlib.Data.List.TakeWhile

/-!
# The places where commas dangle

Which commas are deleted is said here of the places of a text, without a scanner: a comma dangles
if it stands outside the string literals and the next character behind it that is not blank ends an
array or an object. The main statement is that the text without its dangling commas is the text at
all other places, whatever the text holds (`stripTrailingCommas_eq_places`). In particular a comma
dangles or not in the text as it stands: that an earlier one has been deleted exposes no other.

## Outside the literals

A place is outside the literals if what comes before it consists of whole literals and characters
that are no quotes; so no place behind an unclosed quote is. Comments mean nothing here, for the texts in
question are meant to have none; in one that has them, a quote in a comment begins a literal like
any other.

The scanner knows where it stands from a state that it carries along, and `outside_iff` says that
the state and the text before a place agree. The proof that all other places are kept runs over the
text with what has been read so far in hand, since a place is outside or not by what comes before.
-/

namespace BarBridge.Jsonc

open Json

/-- Whether a text ends outside its literals: it consists of whole literals and of characters that
begin none. -/
inductive Outside : List Char → Prop where
  | nil : Outside []
  | char {c : Char} {cs : List Char} (hquote : c ≠ '"') : Outside cs → Outside (c :: cs)
  | literal {body cs : List Char} (hbody : Escaped body) :
      Outside cs → Outside ('"' :: (body ++ '"' :: cs))

/-- Whether there is a comma at a place of a text, outside the literals, and the next character that
is not blank ends an array or an object. -/
structure DanglesAt (text : List Char) (i : Nat) : Prop where
  comma : text[i]? = some ','
  outside : Outside (text.take i)
  ahead : ∃ blanks bracket rest, text.drop (i + 1) = blanks ++ bracket :: rest ∧
    (∀ c ∈ blanks, Text.isBlank c = true) ∧ (bracket = ']' ∨ bracket = '}')

/-! ## Where the scanner stands -/

/-- Where the comma scanner stands behind a character. -/
def Literal.next (c : Char) : Literal → Literal
  | .outside => if c = '"' then .inside else .outside
  | .inside => if c = '\\' then .escape else if c = '"' then .outside else .inside
  | .escape => .inside

/-- Where the comma scanner stands behind a text. -/
def placeAfter (place : Literal) (text : List Char) : Literal :=
  text.foldl (fun place c ↦ place.next c) place

theorem placeAfter_cons (place : Literal) (c : Char) (cs : List Char) :
    placeAfter place (c :: cs) = placeAfter (place.next c) cs := rfl

theorem placeAfter_append (place : Literal) (as bs : List Char) :
    placeAfter place (as ++ bs) = placeAfter (placeAfter place as) bs :=
  List.foldl_append

theorem placeAfter_escaped {body : List Char} (h : Escaped body) (cs : List Char) :
    placeAfter .inside (body ++ '"' :: cs) = placeAfter .outside cs := by
  induction h with
  | nil => rfl
  | plain hquote hslash _ ih =>
    rw [List.cons_append, placeAfter_cons, Literal.next, if_neg hslash, if_neg hquote, ih]
  | escape c _ ih => exact ih

theorem Outside.placeAfter_eq {text : List Char} (h : Outside text) :
    placeAfter .outside text = .outside := by
  induction h with
  | nil => rfl
  | char hquote _ ih => rw [placeAfter_cons, Literal.next, if_neg hquote, ih]
  | literal hbody _ ih =>
    rw [placeAfter_cons, Literal.next, if_pos rfl, placeAfter_escaped hbody, ih]

/-- A text behind which the scanner stands outside first completes the literal it is in, if any. The
three places go over into one another, so one induction on the text serves them all. -/
theorem completes_of_placeAfter (text : List Char) :
    (placeAfter .outside text = .outside → Outside text) ∧
      (placeAfter .inside text = .outside →
        ∃ body cs, Escaped body ∧ Outside cs ∧ text = body ++ '"' :: cs) ∧
      (placeAfter .escape text = .outside →
        ∃ body cs, Escaped ('\\' :: body) ∧ Outside cs ∧ text = body ++ '"' :: cs) := by
  induction text with
  | nil => exact ⟨fun _ ↦ .nil, fun h ↦ absurd h (by decide), fun h ↦ absurd h (by decide)⟩
  | cons c text ih =>
    obtain ⟨houtside, hinside, hescape⟩ := ih
    refine ⟨fun h ↦ ?_, fun h ↦ ?_, fun h ↦ ?_⟩
    · rw [placeAfter_cons, Literal.next] at h
      split at h
      · next hquote =>
        obtain ⟨body, cs, hbody, hcs, rfl⟩ := hinside h
        rw [hquote]
        exact .literal hbody hcs
      · next hquote => exact .char hquote (houtside h)
    · rw [placeAfter_cons, Literal.next] at h
      split at h
      · next hslash =>
        obtain ⟨body, cs, hbody, hcs, rfl⟩ := hescape h
        rw [hslash]
        exact ⟨'\\' :: body, cs, hbody, hcs, rfl⟩
      · next hslash =>
        split at h
        · next hquote =>
          rw [hquote]
          exact ⟨[], text, .nil, houtside h, rfl⟩
        · next hquote =>
          obtain ⟨body, cs, hbody, hcs, rfl⟩ := hinside h
          exact ⟨c :: body, cs, .plain hquote hslash hbody, hcs, rfl⟩
    · obtain ⟨body, cs, hbody, hcs, rfl⟩ := hinside h
      exact ⟨c :: body, cs, .escape c hbody, hcs, rfl⟩

/-- **The scanner stands outside where the text does.** -/
theorem outside_iff {text : List Char} : Outside text ↔ placeAfter .outside text = .outside :=
  ⟨Outside.placeAfter_eq, (completes_of_placeAfter text).1⟩

instance : DecidablePred Outside := fun _ ↦ decidable_of_iff' _ outside_iff

/-! ## What is ahead of a place -/

theorem bracketAhead_iff {text : List Char} :
    bracketAhead text = true ↔ ∃ blanks bracket rest, text = blanks ++ bracket :: rest ∧
      (∀ c ∈ blanks, Text.isBlank c = true) ∧ (bracket = ']' ∨ bracket = '}') := by
  have hcloses : ∀ c, closesContainer c = true ↔ c = ']' ∨ c = '}' := by
    intro c
    rw [closesContainer, Bool.or_eq_true, beq_iff_eq, beq_iff_eq]
  constructor
  · intro h
    have htext := (List.takeWhile_append_dropWhile (p := Text.isBlank) (l := text)).symm
    have hblanks : ∀ c ∈ text.takeWhile Text.isBlank, Text.isBlank c = true :=
      fun c hc ↦ List.mem_takeWhile_imp hc
    rw [bracketAhead] at h
    cases hrest : text.dropWhile Text.isBlank with
    | nil =>
      rw [hrest] at h
      exact absurd h (by decide)
    | cons bracket rest =>
      rw [hrest] at h htext
      exact ⟨_, bracket, rest, htext, hblanks, (hcloses bracket).mp h⟩
  · rintro ⟨blanks, bracket, rest, rfl, hblanks, hbracket⟩
    have hbracket := (hcloses bracket).mpr hbracket
    induction blanks with
    | nil => rw [List.nil_append, bracketAhead_cons (isBlank_of_closesContainer hbracket), hbracket]
    | cons c blanks ih =>
      rw [List.cons_append, bracketAhead_cons_blank (hblanks c List.mem_cons_self)]
      exact ih fun d hd ↦ hblanks d (List.mem_cons_of_mem c hd)

theorem danglesAt_iff {text : List Char} {i : Nat} :
    DanglesAt text i ↔ text[i]? = some ',' ∧ Outside (text.take i) ∧
      bracketAhead (text.drop (i + 1)) = true := by
  rw [bracketAhead_iff]
  exact ⟨fun h ↦ ⟨h.comma, h.outside, h.ahead⟩, fun h ↦ ⟨h.1, h.2.1, h.2.2⟩⟩

instance (text : List Char) : DecidablePred (DanglesAt text) :=
  fun _ ↦ decidable_of_iff' _ danglesAt_iff

/-! ## The places that are kept

A place is kept or not by the text in front of it, where the scanner has a state instead. Between
the two stands `keptFrom`, which goes through the text as the scanner does and looks at what is in
front. -/

theorem dropAhead_cons (place : Literal) (c : Char) (cs : List Char) :
    dropAhead place (c :: cs) =
      if place = .outside ∧ c = ',' ∧ bracketAhead cs = true then dropAhead (place.next c) cs
      else c :: dropAhead (place.next c) cs := by
  cases place with
  | outside =>
    rw [dropAhead]
    by_cases hcomma : c = ',' ∧ bracketAhead cs = true
    · rw [if_pos hcomma, if_pos ⟨rfl, hcomma⟩, hcomma.1]
      rfl
    · have hkept : ¬(Literal.outside = .outside ∧ c = ',' ∧ bracketAhead cs = true) :=
        fun h ↦ hcomma h.2
      rw [if_neg hcomma, if_neg hkept]
      rfl
  | inside | escape => rfl

/-- The characters of a text at the places where no comma dangles, those behind some that have been
read. -/
def keptFrom (before rest : List Char) : List Char :=
  ((rest.zipIdx before.length).filter fun p ↦ ¬DanglesAt (before ++ rest) p.2).map Prod.fst

theorem keptFrom_cons (before : List Char) (c : Char) (cs : List Char) :
    keptFrom before (c :: cs) =
      if placeAfter .outside before = .outside ∧ c = ',' ∧ bracketAhead cs = true then
        keptFrom (before ++ [c]) cs
      else c :: keptFrom (before ++ [c]) cs := by
  have hdangles : DanglesAt (before ++ c :: cs) before.length ↔
      placeAfter .outside before = .outside ∧ c = ',' ∧ bracketAhead cs = true := by
    rw [danglesAt_iff, and_left_comm, outside_iff, List.take_left,
      List.getElem?_append_right (Nat.le_refl _), Nat.sub_self, List.getElem?_cons_zero,
      Option.some.injEq, List.drop_append, List.drop_of_length_le (Nat.le_succ _),
      Nat.add_sub_cancel_left]
    rfl
  have hrest : keptFrom (before ++ [c]) cs =
      ((cs.zipIdx (before.length + 1)).filter
        fun p ↦ ¬DanglesAt (before ++ c :: cs) p.2).map Prod.fst := by
    rw [keptFrom, List.append_assoc, List.length_append]
    rfl
  rw [hrest, keptFrom, List.zipIdx_cons]
  by_cases h : DanglesAt (before ++ c :: cs) before.length
  · rw [if_pos (hdangles.mp h), List.filter_cons_of_neg (by simpa using h)]
  · rw [if_neg fun h' ↦ h (hdangles.mpr h'), List.filter_cons_of_pos (by simpa using h)]
    rfl

/-- The scanner keeps what is kept by place. The induction is on the rest of the text; the scanner
stands where the text before leaves it. -/
theorem dropAhead_eq_keptFrom (before rest : List Char) :
    dropAhead (placeAfter .outside before) rest = keptFrom before rest := by
  induction rest generalizing before with
  | nil =>
    cases placeAfter .outside before <;> rfl
  | cons c cs ih =>
    have hnext : (placeAfter .outside before).next c = placeAfter .outside (before ++ [c]) := by
      rw [placeAfter_append]
      rfl
    rw [dropAhead_cons, keptFrom_cons, hnext, ih]

/-- **Exactly the dangling commas are deleted.** Every other character of the text is kept, in
order. -/
theorem stripTrailingCommas_eq_places (text : List Char) :
    stripTrailingCommas text =
      (text.zipIdx.filter fun p ↦ ¬DanglesAt text p.2).map Prod.fst := by
  rw [stripTrailingCommas_eq_dropAhead]
  exact dropAhead_eq_keptFrom [] text

/-- Of several commas in a row the last one dangles, and one in a literal does not. -/
example : (List.range 9).filter (fun i ↦ DanglesAt "[\",]\",, ]".toList i) = [6] := by
  decide +kernel

end BarBridge.Jsonc
