import BarBridge.Proofs.Json.Numerals
import BarBridge.Report
import BarBridge.Warning

/-!
# How the lines begin

Warnings, notes and conversions are values until they are printed. Whoever reads the printed lines
has to go back from a line to its value, and goes by the words that the line begins with. For most
kinds the first letter decides: here it is given for each of them, and that no other kind begins
like an announcement of an interval is read off from it. Where two kinds begin with one letter, the
words behind it are compared.
-/

namespace BarBridge

/-! ## Beginnings of texts

A line is a fixed text, or a value between fixed texts. Where the first letter decides, nothing has
to be known of the value. -/

namespace Text

theorem head?_literal {s : String} {c : Char} {cs : List Char} (h : s = String.ofList (c :: cs)) :
    s.toList.head? = some c := by
  rw [h, String.toList_ofList, List.head?_cons]

theorem head?_append {s : String} {c : Char} (h : s.toList.head? = some c) (t : String) :
    (s ++ t).toList.head? = some c := by
  rw [String.toList_append, List.head?_append, h, Option.some_or]

theorem head?_interpolated {opening : String} {c : Char} {cs : List Char}
    (h : opening = String.ofList (c :: cs)) (value rest : String) :
    (opening ++ value ++ rest).toList.head? = some c :=
  head?_append (head?_append (head?_literal h) value) rest

theorem prefix_interpolated (opening value rest : String) :
    opening.toList <+: (opening ++ value ++ rest).toList := by
  rw [String.append_assoc, String.toList_append]
  exact List.prefix_append _ _

theorem not_prefix_of_head? {c d : Char} {opening text : List Char}
    (hopening : opening.head? = some c) (htext : text.head? = some d) (hne : d ≠ c) :
    ¬opening <+: text := by
  rintro ⟨rest, rfl⟩
  rw [List.head?_append, hopening, Option.some_or, Option.some.injEq] at htext
  exact hne htext.symm

end Text

open Text

/-- Lines that begin with the words of one kind are the lines of that kind. -/
theorem mem_lines_and_opens_iff {α : Type} {as : List α} {message : α → String} {opening : String}
    {tells : UInt64 → α} (hopens : ∀ a, opening.toList <+: (message a).toList ↔ ∃ s, a = tells s)
    {p : Prop} {seconds : UInt64} (hmem : ∀ s, tells s ∈ as ↔ p ∧ s = seconds) (l : String) :
    l ∈ as.map message ∧ opening.toList <+: l.toList ↔ p ∧ l = message (tells seconds) := by
  constructor
  · rintro ⟨hl, hopening⟩
    obtain ⟨a, ha, rfl⟩ := List.mem_map.mp hl
    obtain ⟨s, rfl⟩ := (hopens a).mp hopening
    obtain ⟨hp, rfl⟩ := (hmem s).mp ha
    exact ⟨hp, rfl⟩
  · rintro ⟨hp, rfl⟩
    exact ⟨List.mem_map_of_mem ((hmem seconds).mpr ⟨hp, rfl⟩), (hopens _).mpr ⟨seconds, rfl⟩⟩

/-! ## Conversions -/

namespace Conversion

/-- The letter that the wording of a conversion begins with. -/
def initial : Conversion → Char
  | exec _ => 'e'
  | polled _ => 'i'
  | streamed => 'm'
  | leftClick => 'o'
  | rightClick => 'o'
  | middleClick => 'o'
  | wheel => 's'

theorem head?_message (c : Conversion) : c.message.toList.head? = some c.initial := by
  cases c with
  | exec preview => exact head?_append (head?_literal rfl) _
  | polled seconds => exact head?_append (head?_append (head?_interpolated rfl _ _) _) _
  | _ => exact head?_literal rfl

end Conversion

/-! ## Warnings -/

namespace Warning

/-- The letter that the wording of a warning begins with. -/
def initial : Warning → Char
  | formatFiltered => 'A'
  | iconsIgnored => 'f'
  | streamHeldBack => 'i'
  | signalPolled _ => 's'
  | intervalDefaulted _ => 'i'
  | restartUnsupported => 'r'
  | nameReplaced _ _ => 'm'

theorem head?_message (w : Warning) : w.message.toList.head? = some w.initial := by
  cases w with
  | signalPolled seconds => exact head?_interpolated rfl _ _
  | intervalDefaulted seconds => exact head?_interpolated rfl _ _
  | nameReplaced name stem => exact head?_append (head?_append (head?_interpolated rfl _ _) _) _
  | _ => exact head?_literal rfl

theorem opens_default_iff (w : Warning) :
    "interval not set; defaulting to ".toList <+: w.message.toList ↔
      ∃ s, w = intervalDefaulted s := by
  cases w with
  | intervalDefaulted s => exact iff_of_true (prefix_interpolated _ _ _) ⟨s, rfl⟩
  | streamHeldBack => exact iff_of_false (by decide +kernel) (by simp)
  | _ =>
    refine iff_of_false ?_ (by simp)
    exact not_prefix_of_head? (head?_literal rfl) (head?_message _) (by simp only [initial]; decide)

theorem opens_signal_iff (w : Warning) :
    "signal provided; polling interval set to ".toList <+: w.message.toList ↔
      ∃ s, w = signalPolled s := by
  cases w with
  | signalPolled s => exact iff_of_true (prefix_interpolated _ _ _) ⟨s, rfl⟩
  | _ =>
    refine iff_of_false ?_ (by simp)
    exact not_prefix_of_head? (head?_literal rfl) (head?_message _) (by simp only [initial]; decide)

end Warning

/-! ## Notes

Two notes begin with the same word. Behind it one goes on with a number and the other with a letter,
and no number has a letter in it. -/

namespace Note

/-- The letter that the wording of a note begins with. -/
def initial : Note → Char
  | signal _ => 's'
  | signalPolled _ => 's'
  | intervalDefaulted _ => 'i'
  | streaming => 'i'
  | format _ => 'f'
  | icons _ => 'f'
  | markupEscaped => 'e'
  | minLength _ => 'm'
  | restart _ => 'r'
  | nameReplaced _ => 'n'

theorem head?_message (note : Note) : note.message.toList.head? = some note.initial := by
  cases note with
  | streaming => exact head?_literal rfl
  | markupEscaped => exact head?_literal rfl
  | _ => exact head?_interpolated rfl _ _

theorem opens_default_iff (note : Note) :
    "interval: defaulted to ".toList <+: note.message.toList ↔ ∃ s, note = intervalDefaulted s := by
  cases note with
  | intervalDefaulted s => exact iff_of_true (prefix_interpolated _ _ _) ⟨s, rfl⟩
  | streaming => exact iff_of_false (by decide +kernel) (by simp)
  | _ =>
    refine iff_of_false ?_ (by simp)
    exact not_prefix_of_head? (head?_literal rfl) (head?_message _) (by simp only [initial]; decide)

theorem letter_notMem_int (n : Int) : 'p' ∉ (toString n).toList := by
  intro hmem
  rcases Json.eq_minus_or_isDigit hmem with h | h
  · exact absurd h (by decide)
  · exact absurd h (by decide)

theorem not_opens_signal (n : Int) :
    ¬"signal: polling interval set to ".toList <+: (signal n).message.toList := by
  have hopening : "signal: polling interval set to ".toList =
      "signal: ".toList ++ 'p' :: "olling interval set to ".toList := by
    decide +kernel
  have hmessage : (signal n).message =
      "signal: " ++ (toString n ++ " (Noctalia uses polling/streaming instead)") :=
    String.append_assoc
  rw [hopening, hmessage, String.toList_append, List.prefix_append_right_inj, String.toList_append]
  cases hnumber : (toString n).toList with
  | nil => exact not_prefix_of_head? rfl (head?_literal rfl) (by decide)
  | cons c cs =>
    intro hprefix
    refine letter_notMem_int n ?_
    rw [hnumber, (List.cons_prefix_cons.mp hprefix).1]
    exact List.mem_cons_self

theorem opens_signal_iff (note : Note) :
    "signal: polling interval set to ".toList <+: note.message.toList ↔
      ∃ s, note = signalPolled s := by
  cases note with
  | signalPolled s => exact iff_of_true (prefix_interpolated _ _ _) ⟨s, rfl⟩
  | signal n => exact iff_of_false (not_opens_signal n) (by simp)
  | _ =>
    refine iff_of_false ?_ (by simp)
    exact not_prefix_of_head? (head?_literal rfl) (head?_message _) (by simp only [initial]; decide)

end Note

end BarBridge
