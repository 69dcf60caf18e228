import BarBridge.Text.QmlString
import Mathlib.Algebra.Ring.Parity
import Mathlib.Data.List.DropRight

/-!
# Reading a literal back

The reader of a double-quoted literal starts behind the opening quote and stops behind the first
quote that no backslash escapes. A line may not end inside a literal, and only the four escapes that
`qmlEscape` writes are known. What `qmlString` writes is read back as the text it was written for,
and the reader stops at the quote that was put behind it, whatever follows (`readLiteral_append`).

## Runs of backslashes

Whether a quote is escaped cannot be told from the character in front of it: that may be a backslash
which is escaped itself. It depends on how many backslashes stand in front, and `EndsEscaping` takes
it from there, with no regard to who wrote them. What has been written never ends on an escaping
backslash, however many there are in the text, so a quote put behind it is always the end of the
literal. A quote from the text has an escaping backslash in front, so it never is
(`isContained_qmlString`).
-/

namespace BarBridge.Text

/-- The character that an escape stands for. -/
def unescape? : Char → Option Char
  | '\\' => some '\\'
  | '"' => some '"'
  | 'n' => some '\n'
  | 'r' => some '\r'
  | _ => none

/-- The text of a literal and what stands behind its closing quote, read from behind the opening
quote on. -/
def readLiteral : List Char → Option (List Char × List Char)
  | [] => none
  | '"' :: rest => some ([], rest)
  | ['\\'] => none
  | '\\' :: e :: rest => do
    let c ← unescape? e
    let (text, rest) ← readLiteral rest
    return (c :: text, rest)
  | c :: rest =>
    if c = '\n' ∨ c = '\r' then none
    else (readLiteral rest).map fun (text, rest) ↦ (c :: text, rest)

theorem qmlEscape_cases (c : Char) :
    (∃ e, qmlEscape c = ['\\', e] ∧ unescape? e = some c) ∨
      qmlEscape c = [c] ∧ c ≠ '\\' ∧ c ≠ '"' ∧ c ≠ '\n' ∧ c ≠ '\r' := by
  unfold qmlEscape
  split
  · next h => exact .inl ⟨'\\', rfl, congrArg some h.symm⟩
  split
  · next h => exact .inl ⟨'"', rfl, congrArg some h.symm⟩
  split
  · next h => exact .inl ⟨'n', rfl, congrArg some h.symm⟩
  split
  · next h => exact .inl ⟨'r', rfl, congrArg some h.symm⟩
  · next hslash hquote hfeed hreturn => exact .inr ⟨rfl, hslash, hquote, hfeed, hreturn⟩

theorem readLiteral_escape {e c : Char} (h : unescape? e = some c) (cs : List Char) :
    readLiteral ('\\' :: e :: cs) =
      (readLiteral cs).map fun (text, rest) ↦ (c :: text, rest) := by
  rw [readLiteral, h]
  cases readLiteral cs <;> rfl

theorem readLiteral_plain {c : Char} (hslash : c ≠ '\\') (hquote : c ≠ '"') (hfeed : c ≠ '\n')
    (hreturn : c ≠ '\r') (cs : List Char) :
    readLiteral (c :: cs) = (readLiteral cs).map fun (text, rest) ↦ (c :: text, rest) := by
  have hline : ¬(c = '\n' ∨ c = '\r') := by
    rintro (h | h)
    · exact hfeed h
    · exact hreturn h
  rw [readLiteral, if_neg hline]
  · exact hquote
  · exact fun h _ ↦ hslash h
  · exact fun _ _ h _ ↦ hslash h

theorem readLiteral_qmlEscape (c : Char) (cs : List Char) :
    readLiteral (qmlEscape c ++ cs) =
      (readLiteral cs).map fun (text, rest) ↦ (c :: text, rest) := by
  rcases qmlEscape_cases c with ⟨e, hescape, he⟩ | ⟨hplain, hslash, hquote, hfeed, hreturn⟩
  · rw [hescape]
    exact readLiteral_escape he cs
  · rw [hplain]
    exact readLiteral_plain hslash hquote hfeed hreturn cs

/-- **What is written is read back**, up to the quote put behind it. -/
theorem readLiteral_append (s : String) (rest : List Char) :
    readLiteral ((qmlString s).toList ++ '"' :: rest) = some (s.toList, rest) := by
  rw [qmlString, String.toList_ofList]
  induction s.toList with
  | nil => rfl
  | cons c cs ih =>
    rw [List.flatMap_cons, List.append_assoc, readLiteral_qmlEscape, ih]
    rfl

theorem notMem_qmlString (s : String) {c : Char} (hc : c = '\n' ∨ c = '\r') :
    c ∉ (qmlString s).toList := by
  rw [qmlString, String.toList_ofList, List.mem_flatMap]
  rintro ⟨d, -, hd⟩
  rcases qmlEscape_cases d with ⟨e, hescape, he⟩ | ⟨hplain, -, -, hfeed, hreturn⟩
  · -- A line end is the letter of no escape.
    rw [hescape, List.mem_cons, List.mem_singleton] at hd
    rcases hc with rfl | rfl <;> rcases hd with hd | rfl
    · exact absurd hd (by decide)
    · exact absurd he (by simp [unescape?])
    · exact absurd hd (by decide)
    · exact absurd he (by simp [unescape?])
  · rw [hplain, List.mem_singleton] at hd
    subst hd
    exact hc.elim hfeed hreturn

/-! ## Quotes that end nothing -/

/-- Whether a text ends on a backslash that takes its meaning from the next character. Each two
backslashes in a row stand for one that does not. -/
def EndsEscaping (text : List Char) : Prop :=
  Odd (text.rtakeWhile (· == '\\')).length

/-- What the inside of a literal has to be, so that the literal is neither ended in it nor goes on
behind the quote that is put there. -/
structure IsContained (inside : List Char) : Prop where
  feed_notMem : '\n' ∉ inside
  return_notMem : '\r' ∉ inside
  quote_escaped : ∀ before after, inside = before ++ '"' :: after → EndsEscaping before
  not_endsEscaping : ¬EndsEscaping inside

theorem not_endsEscaping_nil : ¬EndsEscaping [] := by
  simp [EndsEscaping]

theorem endsEscaping_append_singleton (text : List Char) (c : Char) :
    EndsEscaping (text ++ [c]) ↔ c = '\\' ∧ ¬EndsEscaping text := by
  rw [EndsEscaping, EndsEscaping, List.rtakeWhile_concat]
  split
  · next h => simp [beq_iff_eq.mp h, Nat.odd_add_one]
  · next h => simp [beq_iff_eq.not.mp h]

theorem not_endsEscaping_append_qmlEscape {text : List Char} (h : ¬EndsEscaping text) (c : Char) :
    ¬EndsEscaping (text ++ qmlEscape c) := by
  rcases qmlEscape_cases c with ⟨e, hescape, -⟩ | ⟨hplain, hslash, -⟩
  · have hopen : EndsEscaping (text ++ ['\\']) := (endsEscaping_append_singleton _ _).mpr ⟨rfl, h⟩
    rw [hescape, List.append_cons, endsEscaping_append_singleton]
    exact fun hboth ↦ hboth.2 hopen
  · rw [hplain, endsEscaping_append_singleton]
    exact fun hboth ↦ hslash hboth.1

theorem not_endsEscaping_flatMap {text : List Char} (h : ¬EndsEscaping text) (cs : List Char) :
    ¬EndsEscaping (text ++ cs.flatMap qmlEscape) := by
  induction cs generalizing text with
  | nil => rwa [List.flatMap_nil, List.append_nil]
  | cons c cs ih =>
    rw [List.flatMap_cons, ← List.append_assoc]
    exact ih (not_endsEscaping_append_qmlEscape h c)

theorem eq_backslash_of_qmlEscape_eq {c : Char} {before after : List Char}
    (h : qmlEscape c = before ++ '"' :: after) : before = ['\\'] := by
  rcases qmlEscape_cases c with ⟨e, hescape, -⟩ | ⟨hplain, -, hquote, -⟩
  · rw [hescape] at h
    rcases before with _ | ⟨b, _ | ⟨b', before⟩⟩
    · simp at h
    · simp only [List.cons_append, List.nil_append, List.cons.injEq] at h
      rw [← h.1]
    · simp at h
  · rw [hplain] at h
    rcases before with _ | ⟨b, before⟩
    · simp only [List.nil_append, List.cons.injEq] at h
      exact absurd h.1 hquote
    · simp at h

/-- The induction is on the characters still to be written. Where the quote is not in the first of
them, it has moved behind a text that ends on no escaping backslash either. -/
theorem endsEscaping_of_flatMap_eq {text cs before after : List Char} (h : ¬EndsEscaping text)
    (hsplit : cs.flatMap qmlEscape = before ++ '"' :: after) : EndsEscaping (text ++ before) := by
  induction cs generalizing text before with
  | nil => simp at hsplit
  | cons c cs ih =>
    rw [List.flatMap_cons, List.append_eq_append_iff] at hsplit
    rcases hsplit with ⟨before', rfl, hrest⟩ | ⟨inside, hfirst, hrest⟩
    · rw [← List.append_assoc]
      exact ih (not_endsEscaping_append_qmlEscape h c) hrest
    · rcases inside with _ | ⟨d, inside⟩
      · rw [List.append_nil] at hfirst
        have hquote : cs.flatMap qmlEscape = [] ++ '"' :: after := hrest.symm
        rw [← hfirst, ← List.append_nil (text ++ qmlEscape c)]
        exact ih (not_endsEscaping_append_qmlEscape h c) hquote
      · obtain ⟨rfl, -⟩ := List.cons.inj hrest
        rw [eq_backslash_of_qmlEscape_eq hfirst, endsEscaping_append_singleton]
        exact ⟨rfl, h⟩

/-- **No text breaks out of its literal.** -/
theorem isContained_qmlString (s : String) : IsContained (qmlString s).toList := by
  constructor
  case feed_notMem => exact notMem_qmlString s (.inl rfl)
  case return_notMem => exact notMem_qmlString s (.inr rfl)
  case quote_escaped =>
    intro before after h
    rw [qmlString, String.toList_ofList] at h
    exact endsEscaping_of_flatMap_eq not_endsEscaping_nil h
  case not_endsEscaping =>
    rw [qmlString, String.toList_ofList]
    exact not_endsEscaping_flatMap not_endsEscaping_nil s.toList

/-! ## Whole literals

A reader that finds the end of a literal by itself cannot take one for the beginning of another. So
that different texts have different literals follows from their being read back, whatever stands
behind them. -/

/-- The text of the literal that begins here, and what stands behind it. -/
def scanLiteral : List Char → Option (List Char × List Char)
  | '"' :: inside => readLiteral inside
  | _ => none

theorem scanLiteral_quoted (s : String) (rest : List Char) :
    scanLiteral ('"' :: (qmlString s).toList ++ '"' :: rest) = some (s.toList, rest) := by
  rw [List.cons_append, scanLiteral, readLiteral_append]

/-- Literals differ if their texts do, and no literal is the beginning of another. -/
theorem quoted_append_inj {s t : String} {rest rest' : List Char}
    (h : '"' :: (qmlString s).toList ++ '"' :: rest = '"' :: (qmlString t).toList ++ '"' :: rest') :
    s = t ∧ rest = rest' := by
  have hscan := congrArg scanLiteral h
  rw [scanLiteral_quoted, scanLiteral_quoted, Option.some_inj, Prod.mk.injEq,
    String.toList_inj] at hscan
  exact hscan

theorem qmlString_injective : Function.Injective qmlString := fun s t h ↦
  (@quoted_append_inj s t [] [] (by rw [h])).1

/-- **Literals are prefix-safe.** -/
theorem literals_prefixSafe :
    (∀ (s : String) (rest : List Char),
        scanLiteral ('"' :: (qmlString s).toList ++ '"' :: rest) = some (s.toList, rest)) ∧
      Function.Injective qmlString ∧
      ∀ s : String, IsContained (qmlString s).toList :=
  ⟨scanLiteral_quoted, qmlString_injective, isContained_qmlString⟩

end BarBridge.Text
