import Mathlib.Data.List.Infix
import BarBridge.Proofs.Template.Filling

/-!
# Rendering is substitution

A source that alternates text and holes is rendered as the same alternation with each hole replaced
by its value, and by nothing else: neither text nor value is read for holes once it has been put
there, and no character of either is changed, the last line feed included (`render_substitutes`).

## Written sources

`Source` is a source before it is written: the text up to the first hole, and every hole with the
text behind it. Written out, it may be read otherwise, which is what `Source.IsProper` excludes. A
text must not open a tag by itself, nor end in a brace that together with the hole behind it would
open one a character early. A name must be one that stands for a value.

With that, the reader is led through a source piece by piece, and each piece is a lemma about the
reader with any rest behind it (`parseFrom_text`, `parseFrom_hole`). A hole that is never closed has
no rest behind it, so that the reader gets out of it nowhere (`parseFrom_stuck`).
-/

namespace BarBridge.Template

/-! ## Sources -/

/-- A hole as it is written: a name, with what stands before and behind it between the braces. -/
structure Hole where
  before : List Char
  name : String
  behind : List Char
  deriving DecidableEq, Repr

/-- A source that alternates text and holes. -/
structure Source where
  start : List Char
  /-- The holes, each with the text behind it. -/
  rest : List (Hole × List Char)
  deriving DecidableEq, Repr

/-- The words that stand for themselves or ask for something behind them. -/
def reserved : List String :=
  ["true", "True", "false", "False", "none", "None", "not"]

/-- Whether a text is a name, and one that stands for a value. -/
structure IsName (name : String) : Prop where
  chars : ∃ c cs, name.toList = c :: cs ∧ isNameStart c = true ∧ cs.all isNameRest = true
  not_reserved : name ∉ reserved
  not_function : name ∉ functions.map Prod.fst

/-- Whether a text opens no tag. -/
def IsPlain (text : List Char) : Prop :=
  ∀ c ∈ ['{', '%', '#'], ¬['{', c] <:+: text

namespace Hole

def written (h : Hole) : List Char :=
  '{' :: '{' :: h.before ++ h.name.toList ++ h.behind ++ ['}', '}']

/-- Whether there is a name, and nothing around it but blanks. The blanks are those of ASCII that are
white space; the engine refuses a hole with any other. -/
structure IsProper (h : Hole) : Prop where
  before : h.before.all isHoleBlank = true
  name : IsName h.name
  behind : h.behind.all isHoleBlank = true

end Hole

namespace Source

/-- The source as text. -/
def written (s : Source) : List Char :=
  s.start ++ s.rest.flatMap fun part ↦ part.1.written ++ part.2

def texts (s : Source) : List (List Char) :=
  s.start :: s.rest.map Prod.snd

def names (s : Source) : List String :=
  s.rest.map fun part ↦ part.1.name

/-- Whether the source is read as the text and the holes that it is made of. -/
structure IsProper (s : Source) : Prop where
  plain : ∀ text ∈ s.texts, IsPlain text
  apart : ∀ text ∈ s.texts.dropLast, text.getLast? ≠ some '{'
  holes : ∀ part ∈ s.rest, part.1.IsProper

/-- The source with its holes replaced. A name without a value would leave nothing. -/
def substituted (s : Source) (values : List (String × Value)) : List Char :=
  s.start ++ s.rest.flatMap fun part ↦
    ((values.lookup part.1.name).map Value.write).getD [] ++ part.2

end Source

instance : DecidablePred IsPlain := fun text ↦
  List.decidableBAll (fun c ↦ ¬['{', c] <:+: text) ['{', '%', '#']

/-! ## Reading text -/

theorem IsPlain.tail {c : Char} {cs : List Char} (h : IsPlain (c :: cs)) : IsPlain cs :=
  fun d hd hwithin ↦ h d hd (hwithin.trans (List.suffix_cons c cs).isInfix)

theorem IsPlain.second {c d : Char} {cs : List Char} (h : IsPlain (c :: d :: cs)) (hc : c = '{') :
    d ≠ '{' ∧ d ≠ '%' ∧ d ≠ '#' := by
  have hne : ∀ e ∈ ['{', '%', '#'], d ≠ e := by
    rintro e he rfl
    exact h d he (hc ▸ (List.prefix_append [c, d] cs).isInfix)
  exact ⟨hne _ (by simp), hne _ (by simp), hne _ (by simp)⟩

theorem parseFrom_text_cons {c : Char} {cs : List Char} (read : List Char)
    (h : c = '{' → ∀ d ∈ cs.head?, d ≠ '{' ∧ d ≠ '%' ∧ d ≠ '#') :
    parseFrom (.text read) (c :: cs) = parseFrom (.text (c :: read)) cs := by
  rw [parseFrom]
  · rintro cs' hc rfl
    exact (h hc '{' rfl).1 rfl
  · rintro cs' hc rfl
    exact (h hc '%' rfl).2.1 rfl
  · rintro cs' hc rfl
    exact (h hc '#' rfl).2.2 rfl

/-- **Text is read as it is**, up to where a tag opens or the source ends. -/
theorem parseFrom_text {text rest : List Char} (read : List Char) (hplain : IsPlain text)
    (hapart : text.getLast? = some '{' → rest = []) :
    parseFrom (.text read) (text ++ rest) = parseFrom (.text (text.reverse ++ read)) rest := by
  induction text generalizing read with
  | nil => rfl
  | cons c cs ih =>
    have hstep : c = '{' → ∀ d ∈ (cs ++ rest).head?, d ≠ '{' ∧ d ≠ '%' ∧ d ≠ '#' := by
      intro hc d hd
      rcases cs with _ | ⟨e, cs⟩
      · rw [List.nil_append, hapart (by rw [hc]; rfl)] at hd
        contradiction
      · obtain rfl : e = d := Option.some.inj hd
        exact hplain.second hc
    have hrest : cs.getLast? = some '{' → rest = [] := by
      intro hlast
      exact hapart (by rw [List.getLast?_cons, hlast, Option.getD_some])
    rw [List.cons_append, parseFrom_text_cons read hstep, ih _ hplain.tail hrest, List.reverse_cons,
      List.append_assoc, List.singleton_append]

/-! ## Reading a hole

Between the braces the reader is in front of the name, in it or behind it, and there is a lemma for
each of these. It does not come to be behind the name where the braces follow at once, which makes
two ways out of a hole (`parseFrom_name_end`). -/

theorem isNameRest_of_isNameStart {c : Char} (h : isNameStart c = true) : isNameRest c = true := by
  rw [isNameStart, Bool.or_eq_true] at h
  rw [isNameRest, Bool.or_eq_true, Char.isAlphanum, Bool.or_eq_true]
  exact h.imp_left .inl

theorem of_isHoleBlank {c : Char} (h : isHoleBlank c = true) : isNameRest c = false ∧ c ≠ '}' := by
  simp only [isHoleBlank, Bool.or_eq_true, beq_iff_eq] at h
  rcases h with (((rfl | rfl) | rfl) | rfl) | rfl <;> decide

theorem isHoleBlank_of_isNameStart {c : Char} (h : isNameStart c = true) :
    isHoleBlank c = false := by
  refine Bool.eq_false_iff.mpr fun hblank ↦ ?_
  have hrest := (of_isHoleBlank hblank).1
  rw [isNameRest_of_isNameStart h] at hrest
  contradiction

theorem ne_brace_of_isNameRest {c : Char} (h : isNameRest c = true) : c ≠ '}' := by
  rintro rfl
  contradiction

theorem pieceOf?_of_isName {name : String} (h : IsName name) :
    pieceOf? name.toList = some (.hole name) := by
  have hne : ∀ word ∈ reserved, name.toList ≠ word.toList := fun word hword heq ↦
    h.not_reserved (String.toList_inj.mp heq ▸ hword)
  unfold pieceOf?
  split
  · next heq => exact absurd heq (hne "true" (by decide))
  · next heq => exact absurd heq (hne "True" (by decide))
  · next heq => exact absurd heq (hne "false" (by decide))
  · next heq => exact absurd heq (hne "False" (by decide))
  · next heq => exact absurd heq (hne "none" (by decide))
  · next heq => exact absurd heq (hne "None" (by decide))
  · next heq => exact absurd heq (hne "not" (by decide))
  · rw [String.ofList_toList]

theorem parseFrom_beforeName {blanks : List Char} (h : blanks.all isHoleBlank = true)
    (rest : List Char) : parseFrom .beforeName (blanks ++ rest) = parseFrom .beforeName rest := by
  induction blanks with
  | nil => rfl
  | cons c cs ih =>
    rw [List.all_cons, Bool.and_eq_true] at h
    rw [List.cons_append, parseFrom, if_pos h.1, ih h.2]

theorem parseFrom_name {cs : List Char} (h : cs.all isNameRest = true) (read rest : List Char) :
    parseFrom (.name read) (cs ++ rest) = parseFrom (.name (cs.reverse ++ read)) rest := by
  induction cs generalizing read with
  | nil => rfl
  | cons c cs ih =>
    rw [List.all_cons, Bool.and_eq_true] at h
    rw [List.cons_append, parseFrom, if_pos h.1, ih h.2, List.reverse_cons, List.append_assoc,
      List.singleton_append]
    exact fun _ hc _ ↦ ne_brace_of_isNameRest h.1 hc

theorem parseFrom_afterName {blanks : List Char} (h : blanks.all isHoleBlank = true)
    (name rest : List Char) :
    parseFrom (.afterName name) (blanks ++ '}' :: '}' :: rest) =
      withWord name (parseFrom (.text []) rest) := by
  induction blanks with
  | nil => rw [List.nil_append, parseFrom]
  | cons c cs ih =>
    rw [List.all_cons, Bool.and_eq_true] at h
    rw [List.cons_append, parseFrom, if_pos h.1, ih h.2]
    exact fun _ hc _ ↦ (of_isHoleBlank h.1).2 hc

theorem parseFrom_name_end {blanks : List Char} (h : blanks.all isHoleBlank = true)
    (name rest : List Char) :
    parseFrom (.name name) (blanks ++ '}' :: '}' :: rest) =
      withWord name (parseFrom (.text []) rest) := by
  rcases blanks with _ | ⟨c, cs⟩
  · rw [List.nil_append, parseFrom]
  · rw [List.all_cons, Bool.and_eq_true] at h
    obtain ⟨hname, hbrace⟩ := of_isHoleBlank h.1
    rw [List.cons_append, parseFrom, if_neg (by simp [hname]), if_pos h.1, parseFrom_afterName h.2]
    exact fun _ hc _ ↦ hbrace hc

/-- **A hole is read as its name.** -/
theorem parseFrom_hole {h : Hole} (hproper : h.IsProper) (read rest : List Char) :
    parseFrom (.text read) (h.written ++ rest) =
      (parseFrom (.text []) rest).map fun pieces ↦ withText read (.hole h.name :: pieces) := by
  obtain ⟨c, cs, hname, hstart, hrest⟩ := hproper.name.chars
  have hword : pieceOf? (cs.reverse ++ [c]).reverse = some (.hole h.name) := by
    rw [List.reverse_append, List.reverse_reverse, ← pieceOf?_of_isName hproper.name, hname]
    rfl
  have hinside :
      parseFrom .beforeName (h.before ++ h.name.toList ++ h.behind ++ '}' :: '}' :: rest) =
        (parseFrom (.text []) rest).map (.hole h.name :: ·) := by
    rw [List.append_assoc, List.append_assoc, parseFrom_beforeName hproper.before, hname,
      List.cons_append, parseFrom, if_neg (by simp [isHoleBlank_of_isNameStart hstart]),
      if_pos hstart, parseFrom_name hrest, parseFrom_name_end hproper.behind, withWord, hword]
    rcases parseFrom (.text []) rest with _ | pieces <;> rfl
  have hwritten : h.written ++ rest =
      '{' :: '{' :: (h.before ++ h.name.toList ++ h.behind ++ '}' :: '}' :: rest) := by
    simp [Hole.written]
  rw [hwritten, parseFrom, hinside, Option.map_map]
  rfl

/-! ## Reading a source -/

/-- The piece that a text makes, if it is not empty. -/
def textPiece (text : List Char) : List Piece :=
  if text = [] then [] else [.text text]

/-- The pieces of a source. -/
def Source.pieces (s : Source) : List Piece :=
  textPiece s.start ++ s.rest.flatMap fun part ↦ .hole part.1.name :: textPiece part.2

theorem withText_reverse (text : List Char) (pieces : List Piece) :
    withText text.reverse pieces = textPiece text ++ pieces := by
  simp only [withText, textPiece, List.reverse_eq_nil_iff, List.reverse_reverse]
  split <;> rfl

theorem Source.IsProper.of_cons {start text : List Char} {h : Hole} {rest : List (Hole × List Char)}
    (hproper : IsProper ⟨start, (h, text) :: rest⟩) :
    IsPlain start ∧ start.getLast? ≠ some '{' ∧ h.IsProper ∧ IsProper ⟨text, rest⟩ := by
  obtain ⟨hplain, hapart, hholes⟩ := hproper
  rw [texts, List.map_cons] at hplain hapart
  rw [List.dropLast_cons_cons] at hapart
  rw [List.forall_mem_cons] at hplain hapart hholes
  exact ⟨hplain.1, hapart.1, hholes.1, hplain.2, hapart.2, hholes.2⟩

/-- **A proper source is read as the pieces it is made of.** The induction is on the holes; the text
behind a hole begins the source that is left. -/
theorem parseFrom_written {s : Source} (h : s.IsProper) :
    parseFrom (.text []) s.written = some s.pieces := by
  obtain ⟨start, rest⟩ := s
  induction rest generalizing start with
  | nil =>
    have hplain : IsPlain start := h.plain start List.mem_cons_self
    rw [Source.written, List.flatMap_nil, parseFrom_text [] hplain fun _ ↦ rfl, List.append_nil,
      parseFrom, withText_reverse]
    rfl
  | cons part rest ih =>
    obtain ⟨hole, text⟩ := part
    obtain ⟨hplain, hapart, hhole, hrest⟩ := h.of_cons
    have hwritten : Source.written ⟨start, (hole, text) :: rest⟩ =
        start ++ (hole.written ++ Source.written ⟨text, rest⟩) := by
      simp only [Source.written, List.flatMap_cons, List.append_assoc]
    rw [hwritten, parseFrom_text [] hplain fun hlast ↦ absurd hlast hapart, List.append_nil,
      parseFrom_hole hhole, ih text hrest, Option.map_some, withText_reverse]
    rfl

/-! ## Filling a source

The functions of the engine are looked up like values, after those that are given. No name that
stands for a value is one of theirs. -/

theorem fill_textPiece (values : List (String × Value)) (text : List Char) (pieces : List Piece) :
    fill values (textPiece text ++ pieces) = (fill values pieces).map (text ++ ·) := by
  by_cases hnil : text = []
  · rw [textPiece, if_pos hnil, hnil, List.nil_append]
    rcases fill values pieces with name | chars <;> rfl
  · rw [textPiece, if_neg hnil]
    rfl

theorem lookup_functions {name : String} (h : name ∉ functions.map Prod.fst)
    (values : List (String × Value)) : (values ++ functions).lookup name = values.lookup name := by
  have hnone : functions.lookup name = none := by
    rw [List.lookup_eq_none_iff]
    intro p hp
    rw [bne_iff_ne]
    rintro rfl
    exact h (List.mem_map_of_mem hp)
  rw [List.lookup_append, hnone, Option.or_none]

/-- **A source is filled by replacing its holes**, up to the first without a value. -/
theorem fill_pieces {s : Source} (h : s.IsProper) (values : List (String × Value)) :
    fill (values ++ functions) s.pieces =
      (s.names.find? fun name ↦ (values.lookup name).isNone).elim (.ok (s.substituted values))
        .error := by
  obtain ⟨start, rest⟩ := s
  induction rest generalizing start with
  | nil =>
    rw [Source.pieces, fill_textPiece]
    rfl
  | cons part rest ih =>
    obtain ⟨hole, text⟩ := part
    obtain ⟨-, -, hhole, hrest⟩ := h.of_cons
    have hlookup := lookup_functions hhole.name.not_function values
    have hpieces : Source.pieces ⟨start, (hole, text) :: rest⟩ =
        textPiece start ++ .hole hole.name :: Source.pieces ⟨text, rest⟩ := rfl
    have hnames : Source.names ⟨start, (hole, text) :: rest⟩ =
        hole.name :: Source.names ⟨text, rest⟩ := rfl
    rw [hpieces, fill_textPiece, hnames]
    rcases hvalue : values.lookup hole.name with _ | v
    · rw [fill, hlookup, hvalue, List.find?_cons_of_pos (by simp [hvalue])]
      rfl
    · have hsubstituted : Source.substituted ⟨start, (hole, text) :: rest⟩ values =
          start ++ (v.write ++ Source.substituted ⟨text, rest⟩ values) := by
        simp only [Source.substituted, List.flatMap_cons, hvalue, Option.map_some, Option.getD_some,
          List.append_assoc]
      rw [fill_hole (hlookup.trans hvalue), ih text hrest,
        List.find?_cons_of_neg (by simp [hvalue]), hsubstituted]
      rcases (Source.names ⟨text, rest⟩).find? fun name ↦ (values.lookup name).isNone <;> rfl

/-! ## Holes that are never closed -/

/-- Whether nothing in a text closes a hole. -/
def NeverCloses (text : List Char) : Prop :=
  ¬['}', '}'] <:+: text

/-- Whether a text has a hole that is never closed. Before it there are no tags but holes. -/
def IsUnclosed (text : List Char) : Prop :=
  ∃ before rest, text = before ++ '{' :: '{' :: rest ∧ NeverCloses rest ∧
    ∀ c ∈ ['%', '#'], ¬['{', c] <:+: before

theorem NeverCloses.tail {c : Char} {cs : List Char} (h : NeverCloses (c :: cs)) :
    NeverCloses cs :=
  fun hwithin ↦ h (hwithin.trans (List.suffix_cons c cs).isInfix)

theorem NeverCloses.cons {c : Char} {cs : List Char} (h : NeverCloses cs) (hc : c ≠ '}') :
    NeverCloses (c :: cs) := by
  intro hwithin
  rcases List.infix_cons_iff.mp hwithin with hprefix | hwithin
  · exact hc (List.cons_prefix_cons.mp hprefix).1.symm
  · exact h hwithin

theorem IsUnclosed.of_cons {c : Char} {cs : List Char} (h : IsUnclosed (c :: cs)) :
    IsUnclosed cs ∨ c = '{' ∧ ∃ rest, cs = '{' :: rest ∧ NeverCloses rest := by
  obtain ⟨before, rest, heq, hrest, hbefore⟩ := h
  rcases before with _ | ⟨d, before⟩
  · rw [List.nil_append, List.cons.injEq] at heq
    exact .inr ⟨heq.1, rest, heq.2, hrest⟩
  · rw [List.cons_append, List.cons.injEq] at heq
    exact .inl ⟨before, rest, heq.2, hrest,
      fun e he hwithin ↦ hbefore e he (hwithin.trans (List.suffix_cons d before).isInfix)⟩

/-- What the reader has before it when it will not get to the end: an unclosed hole, or, from inside
a hole, no closing. -/
def Spot.Stuck : Spot → List Char → Prop
  | text _, cs => IsUnclosed cs
  | _, cs => IsUnclosed cs ∨ NeverCloses cs

theorem stuck_of_opening {cs : List Char} (h : IsUnclosed ('{' :: '{' :: cs)) :
    IsUnclosed cs ∨ NeverCloses cs := by
  rcases h.of_cons with hunclosed | ⟨-, rest, heq, hrest⟩
  · rcases hunclosed.of_cons with hunclosed | ⟨-, rest, rfl, hrest⟩
    · exact .inl hunclosed
    · exact .inr (hrest.cons (by decide))
  · rw [List.cons.injEq] at heq
    exact .inr (heq.2 ▸ hrest)

theorem stuck_of_cons {c : Char} {cs : List Char}
    (h : IsUnclosed (c :: cs) ∨ NeverCloses (c :: cs)) :
    IsUnclosed cs ∨ NeverCloses cs := by
  rcases h with hunclosed | hcloses
  · rcases hunclosed.of_cons with hunclosed | ⟨-, rest, rfl, hrest⟩
    · exact .inl hunclosed
    · exact .inr (hrest.cons (by decide))
  · exact .inr hcloses.tail

theorem unclosed_of_closing {cs : List Char}
    (h : IsUnclosed ('}' :: '}' :: cs) ∨ NeverCloses ('}' :: '}' :: cs)) : IsUnclosed cs := by
  rcases h with hunclosed | hcloses
  · rcases hunclosed.of_cons with hunclosed | ⟨hbrace, -⟩
    · rcases hunclosed.of_cons with hunclosed | ⟨hbrace, -⟩
      · exact hunclosed
      · exact absurd hbrace (by decide)
    · exact absurd hbrace (by decide)
  · exact absurd (List.prefix_append ['}', '}'] cs).isInfix hcloses

theorem not_isUnclosed_nil : ¬IsUnclosed [] := by
  rintro ⟨before, rest, heq, -⟩
  exact absurd heq.symm (by simp)

/-- **The reader does not get out of a hole that is never closed.** The induction is the reader's
own, and every step it takes leaves it stuck. -/
theorem parseFrom_stuck (spot : Spot) (cs : List Char) (h : spot.Stuck cs) :
    parseFrom spot cs = none := by
  fun_induction parseFrom spot cs with
  | case1 read cs ih =>
    rw [ih (stuck_of_opening h)]
    rfl
  | case4 read c cs hopen _ _ ih =>
    rcases IsUnclosed.of_cons h with hunclosed | ⟨hc, rest, hcs, -⟩
    · exact ih hunclosed
    · exact (hopen rest hc hcs).elim
  | case5 read => exact absurd h not_isUnclosed_nil
  | case6 c cs _ ih | case7 c cs _ _ ih => exact ih (stuck_of_cons h)
  | case10 read c cs _ _ ih | case11 read c cs _ _ _ ih | case14 read c cs _ _ ih =>
    exact ih (stuck_of_cons h)
  | case9 read cs ih | case13 read cs ih =>
    rw [ih (unclosed_of_closing h), withWord]
    rcases pieceOf? read.reverse with _ | piece <;> rfl
  | case2 | case3 | case8 | case12 | case15 | case16 => rfl

theorem parse_of_isUnclosed {source : String} (h : IsUnclosed source.toList) :
    parse source = none :=
  parseFrom_stuck (.text []) source.toList h

/-! ## Adding templates

Sources are added in order, up to the first that is no template. A later one takes the place of an
earlier one of the same name, so a name is looked up from the end of the list. -/

theorem addAll_append (set : TemplateSet) (before after : List (String × String)) :
    set.addAll (before ++ after) =
      match set.addAll before with
      | .ok set => set.addAll after
      | .error f => .error f := by
  induction before generalizing set with
  | nil => rfl
  | cons t before ih =>
    obtain ⟨name, source⟩ := t
    rw [List.cons_append, TemplateSet.addAll, TemplateSet.addAll]
    rcases set.add name source with f | set
    · rfl
    · exact ih set

theorem exists_addAll {templates : List (String × String)}
    (h : ∀ t ∈ templates, (parse t.2).isSome = true) (set : TemplateSet) :
    ∃ set', set.addAll templates = .ok set' := by
  induction templates generalizing set with
  | nil => exact ⟨set, rfl⟩
  | cons t templates ih =>
    rw [List.forall_mem_cons] at h
    obtain ⟨pieces, hpieces⟩ := Option.isSome_iff_exists.mp h.1
    rw [addAll_cons hpieces]
    exact ih h.2 _

/-- **The template of a name is the last source given for it.** -/
theorem lookup_addAll {templates : List (String × String)} {set set' : TemplateSet}
    (h : set.addAll templates = .ok set') (name : String) :
    set'.templates.lookup name =
      ((templates.reverse.lookup name).map parse).getD (set.templates.lookup name) := by
  induction templates generalizing set with
  | nil =>
    obtain rfl : set = set' := Except.ok.inj h
    rfl
  | cons t templates ih =>
    obtain ⟨name', source⟩ := t
    rcases hparse : parse source with _ | pieces
    · rw [TemplateSet.addAll, TemplateSet.add, hparse] at h
      contradiction
    · rw [addAll_cons hparse] at h
      rw [ih h, List.reverse_cons, List.lookup_append]
      rcases templates.reverse.lookup name with _ | later
      · rw [List.lookup_cons, List.lookup_cons]
        by_cases hname : name = name'
        · simp [hname, hparse]
        · simp [beq_false_of_ne hname]
      · rfl

theorem ofList_of_isUnclosed {source : String} (h : IsUnclosed source.toList)
    (before : List (String × String)) (name : String) (after : List (String × String)) :
    TemplateSet.ofList (before ++ (name, source) :: after) =
      match TemplateSet.ofList before with
      | .ok _ => .error ⟨name, .malformed⟩
      | .error f => .error f := by
  rw [TemplateSet.ofList, TemplateSet.ofList, addAll_append]
  rcases TemplateSet.addAll ⟨[]⟩ before with f | set
  · rfl
  · simp only [TemplateSet.addAll, TemplateSet.add, parse_of_isUnclosed h]

/-! ## Rendering -/

section Rendering

variable {set : TemplateSet} {name : String} {s : Source}

theorem render_of_defined (hset : set.templates.lookup name = some s.pieces) (hproper : s.IsProper)
    {values : List (String × Value)} (h : ∀ n ∈ s.names, (values.lookup n).isSome = true) :
    set.render name values = .ok (String.ofList (s.substituted values)) := by
  have hnone : (s.names.find? fun n ↦ (values.lookup n).isNone) = none := by
    rw [List.find?_eq_none]
    intro n hn
    rw [← Option.not_isSome, h n hn]
    decide
  refine render_eq hset ?_
  rw [fill_pieces hproper, hnone, Option.elim_none]

theorem render_of_undefined (hset : set.templates.lookup name = some s.pieces)
    (hproper : s.IsProper) {values : List (String × Value)} {n : String} (hn : n ∈ s.names)
    (h : values.lookup n = none) :
    ∃ n ∈ s.names, values.lookup n = none ∧
      set.render name values = .error ⟨name, .undefined n⟩ := by
  have hsome : (s.names.find? fun n ↦ (values.lookup n).isNone).isSome = true :=
    List.find?_isSome.mpr ⟨n, hn, by rw [h, Option.isNone_none]⟩
  obtain ⟨first, hfirst⟩ := Option.isSome_iff_exists.mp hsome
  refine ⟨first, List.mem_of_find?_eq_some hfirst, ?_, ?_⟩
  · have := List.find?_some hfirst
    exact Option.isNone_iff_eq_none.mp this
  · rw [TemplateSet.render, hset]
    simp only [fill_pieces hproper, hfirst, Option.elim_some]

end Rendering

/-- **Rendering is substitution.** Sources that are texts and holes make a set. In a set, a name
stands for the last source given for it; if that is made of texts and holes, then rendering replaces
every hole with its value and keeps every text, or it fails, naming the template, at a name without
a value. A source with a hole that is never closed makes no set, and is named unless one before it
was no template either. -/
theorem render_substitutes :
    (∀ templates : List (String × String),
      (∀ t ∈ templates, ∃ s : Source, s.IsProper ∧ t.2.toList = s.written) →
        ∃ set, TemplateSet.ofList templates = .ok set) ∧
    (∀ templates set name source (s : Source) values,
      TemplateSet.ofList templates = .ok set → templates.reverse.lookup name = some source →
      source.toList = s.written → s.IsProper →
        ((∀ n ∈ s.names, (values.lookup n).isSome = true) →
          set.render name values = .ok (String.ofList (s.substituted values))) ∧
        ((∃ n ∈ s.names, values.lookup n = none) →
          ∃ n ∈ s.names, values.lookup n = none ∧
            set.render name values = .error ⟨name, .undefined n⟩)) ∧
    ∀ before name source after, IsUnclosed source.toList →
      TemplateSet.ofList (before ++ (name, source) :: after) =
        match TemplateSet.ofList before with
        | .ok _ => .error ⟨name, .malformed⟩
        | .error f => .error f := by
  refine ⟨?_, ?_, ?_⟩
  · intro templates h
    refine exists_addAll (fun t ht ↦ ?_) ⟨[]⟩
    obtain ⟨s, hproper, hwritten⟩ := h t ht
    rw [parse, hwritten, parseFrom_written hproper, Option.isSome_some]
  · intro templates set name source s values hset hsource hwritten hproper
    have hlookup : set.templates.lookup name = some s.pieces := by
      rw [lookup_addAll hset, hsource, Option.map_some, Option.getD_some, parse, hwritten,
        parseFrom_written hproper]
    refine ⟨render_of_defined hlookup hproper, ?_⟩
    rintro ⟨n, hn, hnone⟩
    exact render_of_undefined hlookup hproper hn hnone
  · intro before name source after h
    exact ofList_of_isUnclosed h before name after

/-- A hole for a label, and nothing else. -/
def labelSource : Source :=
  ⟨[], [(⟨[' '], "label", [' ']⟩, [])]⟩

/-- A label twice with a count in between, and a brace that opens nothing. -/
def countSource : Source :=
  ⟨[], [(⟨['\n'], "label", []⟩, ['{', '\n']), (⟨[], "count", []⟩, [' ']),
    (⟨[' '], "label", [' ']⟩, ['\n'])]⟩

def countTemplates : List (String × String) :=
  [("bar", String.ofList labelSource.written), ("bar", String.ofList countSource.written)]

/-- A label that looks like a hole. -/
def countLabel : String × Value :=
  ("label", .text "\x7b\x7b count \x7d\x7d")

theorem isProper_labelSource : labelSource.IsProper := by
  have hlabel : IsName "label" := ⟨⟨'l', ['a', 'b', 'e', 'l'], rfl, rfl, rfl⟩, by decide, by decide⟩
  exact ⟨by decide, by decide, List.forall_mem_singleton.mpr ⟨rfl, hlabel, rfl⟩⟩

theorem isProper_countSource : countSource.IsProper := by
  have hlabel : IsName "label" := ⟨⟨'l', ['a', 'b', 'e', 'l'], rfl, rfl, rfl⟩, by decide, by decide⟩
  have hcount : IsName "count" := ⟨⟨'c', ['o', 'u', 'n', 't'], rfl, rfl, rfl⟩, by decide, by decide⟩
  refine ⟨by decide, by decide, ?_⟩
  rw [countSource, List.forall_mem_cons, List.forall_mem_cons, List.forall_mem_singleton]
  exact ⟨⟨rfl, hlabel, rfl⟩, ⟨rfl, hcount, rfl⟩, rfl, hlabel, rfl⟩

/-- The template that counts is the one given last. Without a count it is the count that is named,
and a hole short of a brace is found in whichever template has it. -/
theorem render_substitutes_label :
    ∃ set, TemplateSet.ofList countTemplates = .ok set ∧
      set.render "bar" [countLabel, ("count", .integer (-3))] =
        .ok "\x7b\x7b count \x7d\x7d\x7b\n-3 \x7b\x7b count \x7d\x7d\n" ∧
      set.render "bar" [countLabel] = .error ⟨"bar", .undefined "count"⟩ ∧
      TemplateSet.ofList (countTemplates ++ [("row", "\x7b\x7b label \x7d")]) =
        .error ⟨"row", .malformed⟩ := by
  obtain ⟨hset, hrender, hmalformed⟩ := render_substitutes
  obtain ⟨set, hset⟩ := hset countTemplates (by
    rw [countTemplates, List.forall_mem_cons, List.forall_mem_singleton]
    exact ⟨⟨_, isProper_labelSource, String.toList_ofList⟩, _, isProper_countSource,
      String.toList_ofList⟩)
  have hrender := fun values ↦ hrender _ set "bar" _ countSource values hset rfl
    String.toList_ofList isProper_countSource
  have hunclosed : IsUnclosed "\x7b\x7b label \x7d".toList :=
    ⟨[], [' ', 'l', 'a', 'b', 'e', 'l', ' ', '}'], by decide,
      (by decide : ¬['}', '}'] <:+: [' ', 'l', 'a', 'b', 'e', 'l', ' ', '}']),
      fun _ _ hwithin ↦ List.cons_ne_nil _ _ (List.infix_nil.mp hwithin)⟩
  have hrow := hmalformed countTemplates "row" _ [] hunclosed
  rw [hset] at hrow
  refine ⟨set, hset, (hrender [countLabel, ("count", .integer (-3))]).1 (by decide), ?_, hrow⟩
  obtain ⟨n, hn, hnone, herror⟩ := (hrender [countLabel]).2 ⟨"count", by decide, by decide⟩
  obtain rfl : n = "count" := by
    have hnames : ∀ n ∈ countSource.names, [countLabel].lookup n = none → n = "count" := by decide
    exact hnames n hn hnone
  exact herror

end BarBridge.Template
