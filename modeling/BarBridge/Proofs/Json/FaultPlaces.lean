import BarBridge.Json.Reader

/-!
# Faults lie within the text

A fault counts the bytes up to the one it is reported at. Faults arise in many places: in the
machine that cuts the text into tokens, in the reader of tokens, and at the end of either. Wherever
one arises, what it counts has been read (`index_le_of_parse`).

## What carries this

A fault of the machine is put into a token and may be reported long after. So the bound is one on
tokens: `Placed.EndsBy` says that a token begins before a given byte and that a fault inside it
counts no more bytes than that. A step at a character keeps it, with the bytes of the character
taken in (`endsBy_step`); what begins a token under way has been read already, which is all that
must be known of the state (`Scan.StartsBefore`).
-/

namespace BarBridge.Json

open Text

/-- Whether a fault inside a token counts at most `n` bytes. -/
def Token.EndsBy (n : Nat) : Token → Prop
  | .string (.error f) | .scalar (.error f) => f.index ≤ n
  | _ => True

/-- Whether a token begins and breaks within the first `n` bytes. -/
def Placed.EndsBy (n : Nat) (p : Placed) : Prop :=
  p.start < n ∧ p.token.EndsBy n

/-- Whether the token under way begins within the first `n` bytes. -/
def Scan.StartsBefore (n : Nat) : Scan → Prop
  | .keyword start _ _ | .numeral start _ _ | .string start _ | .escape start _
  | .hex start _ _ _ _ | .pair start _ _ _ => start < n
  | .gap | .halted => True

/-- What a step leaves within the first `n` bytes. -/
def Scan.Step.EndsBy (n : Nat) (s : Scan.Step) : Prop :=
  (∀ p ∈ s.1, p.EndsBy n) ∧ s.2.StartsBefore n

variable {n i start : Nat} {c : Char}

theorem Token.EndsBy.mono {t : Token} {m : Nat} (h : t.EndsBy m) (hmn : m ≤ n) : t.EndsBy n := by
  cases t with
  | string value | scalar value =>
    cases value with
    | ok v => exact trivial
    | error f => exact Nat.le_trans h hmn
  | _ => exact trivial

theorem Placed.EndsBy.mono {p : Placed} {m : Nat} (h : p.EndsBy m) (hmn : m ≤ n) : p.EndsBy n :=
  ⟨Nat.lt_of_lt_of_le h.1 hmn, h.2.mono hmn⟩

/-! ## Steps of the machine -/

namespace Scan

theorem endsBy_nil {state : Scan} (h : state.StartsBefore n) : Step.EndsBy n ([], state) :=
  ⟨by simp, h⟩

theorem endsBy_single {t : Token} {state : Scan} (hstart : start < n) (ht : t.EndsBy n)
    (hstate : state.StartsBefore n) : Step.EndsBy n ([⟨start, t⟩], state) := by
  refine ⟨fun p hp ↦ ?_, hstate⟩
  rw [List.mem_singleton.mp hp]
  exact ⟨hstart, ht⟩

theorem endsBy_breakString (hstart : start < n) (cause : Cause) {index : Nat} (h : index ≤ n) :
    Step.EndsBy n (breakString start cause index) :=
  endsBy_single hstart h trivial

theorem endsBy_breakScalar (hstart : start < n) (cause : Cause) {index : Nat} (h : index ≤ n) :
    Step.EndsBy n (breakScalar start cause index) :=
  endsBy_single hstart h trivial

theorem endsBy_stepGap (i : Nat) (c : Char) : Step.EndsBy (i + c.utf8Size) (stepGap i c) := by
  have hi : i < i + c.utf8Size := Nat.lt_add_of_pos_right c.utf8Size_pos
  unfold stepGap
  split
  · exact endsBy_nil trivial
  split
  · split
    · exact endsBy_nil hi
    · exact endsBy_single hi trivial trivial
  split
  -- A mark and a stray character are tokens of their own; a quote, a sign or a letter begins one.
  case h_1 | h_2 | h_3 | h_4 | h_5 | h_6 | h_12 => exact endsBy_single hi trivial trivial
  case h_7 | h_8 | h_9 | h_10 | h_11 => exact endsBy_nil hi

theorem endsBy_token (p : Draft) (stage : Stage) (stop : Nat) :
    (p.token stage stop).EndsBy stop := by
  unfold Draft.token
  split
  · exact trivial
  · exact Nat.sub_le _ _

theorem endsBy_cons {t : Token} (hstart : start < i) (ht : t.EndsBy i) (c : Char) :
    Step.EndsBy (i + c.utf8Size) (⟨start, t⟩ :: (stepGap i c).1, (stepGap i c).2) := by
  have hgap := endsBy_stepGap i c
  refine ⟨fun p hp ↦ ?_, hgap.2⟩
  rcases List.mem_cons.mp hp with rfl | hp
  · exact Placed.EndsBy.mono ⟨hstart, ht⟩ (Nat.le_add_right _ _)
  · exact hgap.1 p hp

theorem endsBy_stepCode (hstart : start < n) (done : List Char) (high code : Option Nat)
    {stop : Nat} (h : stop ≤ n) : Step.EndsBy n (stepCode start done high stop code) := by
  unfold stepCode
  split
  · exact endsBy_breakString hstart _ h
  · split
    · split
      · exact endsBy_breakString hstart _ h
      split
      · exact endsBy_nil hstart
      · exact endsBy_nil hstart
    · split
      · exact endsBy_nil hstart
      · exact endsBy_breakString hstart _ h

/-- **One character.** -/
theorem endsBy_step {state : Scan} (h : state.StartsBefore i) (c : Char) :
    Step.EndsBy (i + c.utf8Size) (state.step i c) := by
  have hsize := c.utf8Size_pos
  -- What began before the character begins before its end.
  have hlater : ∀ {start}, start < i → start < i + c.utf8Size := fun hstart ↦ by omega
  cases state with
  | gap => exact endsBy_stepGap i c
  | keyword start owed value =>
    cases owed with
    | nil => exact endsBy_cons h (show Token.EndsBy i (.scalar (.ok value)) from trivial) c
    | cons letter owed =>
      rw [step]
      split
      · exact endsBy_nil (hlater h)
      · exact endsBy_breakScalar (hlater h) _ (by omega)
  | numeral start stage p =>
    rw [step, stepNumeral]
    split
    · exact endsBy_nil (hlater h)
    split
    · exact endsBy_cons h (endsBy_token p stage i) c
    · exact endsBy_breakScalar (hlater h) _ (by omega)
  | string start done =>
    rw [step]
    split
    · exact endsBy_single (hlater h) trivial trivial
    split
    · exact endsBy_nil (hlater h)
    split
    · exact endsBy_breakString (hlater h) _ (by omega)
    · exact endsBy_nil (hlater h)
  | escape start done =>
    rw [step]
    split
    · exact endsBy_nil (hlater h)
    split
    · exact endsBy_nil (hlater h)
    · exact endsBy_breakString (hlater h) _ (by omega)
  | hex start done high first code =>
    rw [step, stepHex]
    split
    · next hlast => exact endsBy_stepCode (hlater h) done high _ hlast
    · exact endsBy_nil (hlater h)
  | pair start done high slash =>
    cases slash with
    | true | false =>
      rw [step]
      split
      · exact endsBy_nil (hlater h)
      · exact endsBy_breakString (hlater h) _ (by omega)
  | halted => exact endsBy_nil trivial

theorem endsBy_finish {state : Scan} (h : state.StartsBefore n) :
    ∀ p ∈ state.finish n, p.EndsBy n := by
  intro p hp
  cases state with
  | gap | halted => exact absurd hp List.not_mem_nil
  | keyword start owed value =>
    cases owed with
    | nil =>
      rw [List.mem_singleton.mp hp]
      exact ⟨h, trivial⟩
    | cons letter owed =>
      rw [List.mem_singleton.mp hp]
      exact ⟨h, Nat.le_refl n⟩
  | numeral start stage d =>
    rw [finish] at hp
    split at hp
    · rw [List.mem_singleton.mp hp]
      exact ⟨h, endsBy_token d stage n⟩
    · rw [List.mem_singleton.mp hp]
      exact ⟨h, Nat.le_refl n⟩
  | string | escape | hex | pair =>
    rw [List.mem_singleton.mp hp]
    exact ⟨h, Nat.le_refl n⟩

/-- **A run.** The induction is on the rest of the text, with the state and the bytes read
generalised. -/
theorem endsBy_run {state : Scan} (h : state.StartsBefore i) (cs : List Char) :
    ∀ p ∈ state.run i cs, p.EndsBy (i + byteCount cs) := by
  induction cs generalizing state i with
  | nil => exact endsBy_finish h
  | cons c cs ih =>
    obtain ⟨hplaced, hstate⟩ := endsBy_step h c
    intro p hp
    rw [byteCount_cons, ← Nat.add_assoc]
    rcases List.mem_append.mp hp with hp | hp
    · exact (hplaced p hp).mono (Nat.le_add_right _ _)
    · exact ih hstate p hp

end Scan

theorem endsBy_tokens (text : List Char) : ∀ p ∈ tokens text, p.EndsBy (byteCount text) := by
  intro p hp
  have hrun := Scan.endsBy_run (show Scan.gap.StartsBefore 0 from trivial) text p hp
  rwa [Nat.zero_add] at hrun

/-! ## The reader

The reader counts nothing itself. A fault of it is at the first byte of a token, inside one, or at
the end of the text, and what it expected decides the cause alone. -/

namespace Reader

variable {p : Placed} {f : Fault}

theorem index_le_of_enter {awaited : Awaited} {stack : List Frame} (hstart : start < n)
    (h : enter awaited stack start = .error f) : f.index ≤ n := by
  unfold enter at h
  split at h
  · exact absurd h (by simp)
  · rw [← Except.error.inj h]
    exact hstart

theorem index_le_of_beginValue {stack : List Frame} (hp : p.EndsBy n)
    (h : beginValue stack p = .error f) : f.index ≤ n := by
  obtain ⟨start, t⟩ := p
  obtain ⟨hstart, ht⟩ := hp
  cases t with
  | openArray | openObject => exact index_le_of_enter hstart h
  | string value | scalar value =>
    cases value with
    | ok v => exact absurd h (by simp [beginValue])
    | error g =>
      rw [← Except.error.inj h]
      exact ht
  | _ =>
    rw [← Except.error.inj h]
    exact hstart

theorem index_le_of_beginMember {members : List (String × Json)} {stack : List Frame}
    (hp : p.EndsBy n) (h : beginMember members stack p = .error f) : f.index ≤ n := by
  obtain ⟨start, t⟩ := p
  obtain ⟨hstart, ht⟩ := hp
  cases t with
  | string value =>
    cases value with
    | ok v => exact absurd h (by simp [beginMember])
    | error g =>
      rw [← Except.error.inj h]
      exact ht
  | _ =>
    rw [← Except.error.inj h]
    exact hstart

theorem index_le_of_step {r : Reader} (hp : p.EndsBy n) (h : r.step p = .error f) :
    f.index ≤ n := by
  unfold step at h
  split at h
  case h_1 | h_3 | h_5 => exact index_le_of_beginValue hp h
  case h_10 | h_12 => exact index_le_of_beginMember hp h
  case h_4 | h_8 | h_11 | h_14 | h_17 | h_18 =>
    rw [← Except.error.inj h]
    exact hp.1
  all_goals contradiction

theorem index_of_finish {r : Reader} {total : Nat} (h : r.finish total = .error f) :
    f.index = total := by
  unfold finish at h
  split at h
  · exact absurd h (by simp)
  all_goals rw [← Except.error.inj h]

theorem index_le_of_run {r : Reader} {ps : List Placed} (hps : ∀ p ∈ ps, p.EndsBy n)
    (h : run n r ps = .error f) : f.index ≤ n := by
  induction ps generalizing r with
  | nil => exact Nat.le_of_eq (index_of_finish h)
  | cons p ps ih =>
    rw [List.forall_mem_cons] at hps
    rw [run] at h
    split at h
    · exact ih hps.2 h
    · next g hstep =>
      rw [← Except.error.inj h]
      exact index_le_of_step hps.1 hstep

end Reader

/-- **Faults lie within the text.** -/
theorem index_le_of_parse {text : List Char} {f : Fault} (h : parse text = .error f) :
    f.index ≤ byteCount text :=
  Reader.index_le_of_run (endsBy_tokens text) h

end BarBridge.Json
