import BarBridge.Json.Reader
import Mathlib.Data.List.Chain

/-!
# What a reader takes

A reader that succeeds depends on the values of the tokens alone, in order: `run_eq_ok_iff` restates
it without positions. From what one step does follow the two facts about neighbouring tokens that
hold in every text that is read: two values never stand next to each other, and a comma never stands
right before a closing bracket (`isChain_mayPrecede`).
-/

namespace BarBridge.Json

namespace Token

/-- Whether a token is a value or key of its own. -/
def isValue : Token → Bool
  | string _ | scalar _ => true
  | _ => false

/-- Whether a token ends a container. -/
def isClosing : Token → Bool
  | closeArray | closeObject => true
  | _ => false

def isComma : Token → Bool
  | comma => true
  | _ => false

/-- Whether a token stands between two values or between a key and its value. -/
def isSeparator : Token → Bool
  | comma | colon => true
  | _ => false

/-- Whether a token may stand right before another. -/
def MayPrecede (t u : Token) : Prop :=
  ¬(t.isValue = true ∧ u.isValue = true) ∧ ¬(t.isComma = true ∧ u.isClosing = true)

/-- Whether a token carries a fault or is none. -/
def isBroken : Token → Bool
  | string (.error _) | scalar (.error _) | stray => true
  | _ => false

end Token

namespace Reader

/-! ## Without positions

Positions have no part in reading but to be reported with a fault. So once the fault is forgotten,
they are. -/

/-- The reader after a token, if the token is one that it takes. -/
def next (r : Reader) (t : Token) : Option Reader :=
  (r.step ⟨0, t⟩).toOption

/-- The document that tokens make. -/
def read (r : Reader) : List Token → Option Json
  | [] => (r.finish 0).toOption
  | t :: ts => r.next t >>= (read · ts)

theorem toOption_enter (awaited : Awaited) (stack : List Frame) (i j : Nat) :
    (enter awaited stack i).toOption = (enter awaited stack j).toOption := by
  rw [enter, enter]
  split <;> rfl

theorem toOption_beginValue (stack : List Frame) (t : Token) (i j : Nat) :
    (beginValue stack ⟨i, t⟩).toOption = (beginValue stack ⟨j, t⟩).toOption := by
  cases t with
  | openArray | openObject => exact toOption_enter _ _ _ _
  | string value | scalar value => cases value <;> rfl
  | _ => rfl

theorem toOption_beginMember (members : List (String × Json)) (stack : List Frame) (t : Token)
    (i j : Nat) :
    (beginMember members stack ⟨i, t⟩).toOption = (beginMember members stack ⟨j, t⟩).toOption := by
  cases t with
  | string value => cases value <;> rfl
  | _ => rfl

theorem toOption_step (r : Reader) (p : Placed) : (r.step p).toOption = r.next p.token := by
  obtain ⟨awaited, stack⟩ := r
  obtain ⟨i, t⟩ := p
  -- A position goes into a fault and nowhere else; most places begin a value or a member.
  cases awaited with
  | value => exact toOption_beginValue stack t i 0
  | firstItem =>
    cases t with
    | closeArray => rfl
    | _ =>
      simp only [next, step]
      exact toOption_beginValue _ _ i 0
  | laterItem items =>
    cases t with
    | closeArray => rfl
    | _ =>
      simp only [next, step]
      exact toOption_beginValue _ _ i 0
  | firstKey =>
    cases t with
    | closeObject => rfl
    | _ =>
      simp only [next, step]
      exact toOption_beginMember _ _ _ i 0
  | laterKey members =>
    cases t with
    | closeObject => rfl
    | _ =>
      simp only [next, step]
      exact toOption_beginMember _ _ _ i 0
  | _ => cases t <;> rfl

theorem toOption_finish (r : Reader) (total : Nat) :
    (r.finish total).toOption = (r.finish 0).toOption := by
  obtain ⟨awaited, stack⟩ := r
  cases awaited <;> rfl

/-- **Reading succeeds by the values of the tokens alone.** -/
theorem toOption_run (total : Nat) (r : Reader) (ps : List Placed) :
    (run total r ps).toOption = r.read (ps.map (·.token)) := by
  induction ps generalizing r with
  | nil => exact toOption_finish r total
  | cons p ps ih =>
    rw [run, List.map_cons, read, ← toOption_step]
    cases r.step p with
    | ok r' => exact ih r'
    | error f => rfl

theorem run_eq_ok_iff {total : Nat} {r : Reader} {ps : List Placed} {v : Json} :
    run total r ps = .ok v ↔ r.read (ps.map (·.token)) = some v := by
  rw [← toOption_run]
  cases run total r ps with
  | ok w => simp [Except.toOption]
  | error f => simp [Except.toOption]

/-! ## What one step does

What a reader has taken last shows in what it expects next. Three such traces are enough, and each
of them rules out a token behind it. -/

/-- Whether something complete has just been read, so that no value can follow. -/
def isAfterValue (r : Reader) : Bool :=
  match r.awaited with
  | .itemEnd _ | .memberEnd _ | .nothing _ | .colon _ _ => true
  | _ => false

/-- Whether a comma has just been read. -/
def isAfterComma (r : Reader) : Bool :=
  match r.awaited with
  | .laterItem _ | .laterKey _ => true
  | _ => false

/-- Whether a value or key has to come before anything may end. -/
def isOwing (r : Reader) : Bool :=
  match r.awaited with
  | .value | .laterItem _ | .laterKey _ => true
  | _ => false

theorem isAfterValue_deliver (v : Json) (stack : List Frame) :
    (deliver v stack).isAfterValue = true := by
  cases stack with
  | nil => rfl
  | cons f stack => cases f <;> rfl

theorem isBroken_of_next {r r' : Reader} {t : Token} (h : r.next t = some r') :
    t.isBroken = false := by
  obtain ⟨awaited, stack⟩ := r
  cases t with
  | string value | scalar value =>
    cases value with
    | ok v => rfl
    | error f => cases awaited <;> simp [next, step, beginValue, beginMember, Except.toOption] at h
  | stray => cases awaited <;> simp [next, step, beginValue, beginMember, Except.toOption] at h
  | _ => rfl

theorem isAfterValue_of_next {r r' : Reader} {t : Token} (ht : t.isValue = true)
    (h : r.next t = some r') : r'.isAfterValue = true := by
  obtain ⟨awaited, stack⟩ := r
  cases t with
  | string value | scalar value =>
    cases value with
    | error f => exact absurd (isBroken_of_next h) (by simp [Token.isBroken])
    | ok v =>
      cases awaited <;>
        simp only [next, step, beginValue, beginMember, Except.toOption, Option.some.injEq,
          reduceCtorEq] at h <;>
        subst h <;> first | exact isAfterValue_deliver _ _ | rfl
  | _ => exact absurd ht (by simp [Token.isValue])

theorem isAfterComma_of_next {r r' : Reader} {t : Token} (ht : t.isComma = true)
    (h : r.next t = some r') : r'.isAfterComma = true := by
  obtain ⟨awaited, stack⟩ := r
  cases t with
  | comma =>
    cases awaited <;>
      simp only [next, step, beginValue, beginMember, Except.toOption, Option.some.injEq,
        reduceCtorEq] at h <;>
      subst h <;> rfl
  | _ => exact absurd ht (by simp [Token.isComma])

theorem next_of_isAfterValue {r : Reader} {t : Token} (hr : r.isAfterValue = true)
    (ht : t.isValue = true) : r.next t = none := by
  obtain ⟨awaited, stack⟩ := r
  cases t with
  | string value | scalar value =>
    cases awaited with
    | itemEnd items | memberEnd members | nothing document => rfl
    | colon members key => rfl
    | _ => exact absurd hr (by simp [isAfterValue])
  | _ => exact absurd ht (by simp [Token.isValue])

theorem next_of_isAfterComma {r : Reader} {t : Token} (hr : r.isAfterComma = true)
    (ht : t.isClosing = true) : r.next t = none := by
  obtain ⟨awaited, stack⟩ := r
  cases t with
  | closeArray | closeObject =>
    cases awaited with
    | laterItem items | laterKey members => rfl
    | _ => exact absurd hr (by simp [isAfterComma])
  | _ => exact absurd ht (by simp [Token.isClosing])

theorem isOwing_of_next {r r' : Reader} {t : Token} (ht : t.isSeparator = true)
    (h : r.next t = some r') : r'.isOwing = true := by
  obtain ⟨awaited, stack⟩ := r
  cases t with
  | comma | colon =>
    cases awaited <;>
      simp only [next, step, beginValue, beginMember, Except.toOption, Option.some.injEq,
        reduceCtorEq] at h <;>
      subst h <;> rfl
  | _ => exact absurd ht (by simp [Token.isSeparator])

theorem next_of_isOwing {r : Reader} {t : Token} (hr : r.isOwing = true)
    (ht : t.isClosing = true) : r.next t = none := by
  obtain ⟨awaited, stack⟩ := r
  cases t with
  | closeArray | closeObject =>
    cases awaited with
    | value | laterItem items | laterKey members => rfl
    | _ => exact absurd hr (by simp [isOwing])
  | _ => exact absurd ht (by simp [Token.isClosing])

/-! ## What the tokens of a document look like -/

theorem mayPrecede_of_next {r r' r'' : Reader} {t u : Token} (h : r.next t = some r')
    (h' : r'.next u = some r'') : t.MayPrecede u := by
  constructor
  · rintro ⟨ht, hu⟩
    rw [next_of_isAfterValue (isAfterValue_of_next ht h) hu] at h'
    exact absurd h' (by simp)
  · rintro ⟨ht, hu⟩
    rw [next_of_isAfterComma (isAfterComma_of_next ht h) hu] at h'
    exact absurd h' (by simp)

theorem exists_next_of_read {r : Reader} {t : Token} {ts : List Token} {v : Json}
    (h : r.read (t :: ts) = some v) : ∃ r', r.next t = some r' ∧ r'.read ts = some v :=
  Option.bind_eq_some_iff.mp h

theorem isBroken_of_read {r : Reader} {ts : List Token} {v : Json} (h : r.read ts = some v) :
    ∀ t ∈ ts, t.isBroken = false := by
  induction ts generalizing r with
  | nil => simp
  | cons t ts ih =>
    obtain ⟨r', hnext, hread⟩ := exists_next_of_read h
    intro u hu
    rcases List.mem_cons.mp hu with rfl | hu
    · exact isBroken_of_next hnext
    · exact ih hread u hu

/-- What holds of any two tokens that are taken one right after the other holds of the neighbours in
a document. -/
theorem isChain_of_read {R : Token → Token → Prop}
    (hnext : ∀ {r r' r'' : Reader} {t u : Token}, r.next t = some r' → r'.next u = some r'' → R t u)
    {r : Reader} {ts : List Token} {v : Json} (h : r.read ts = some v) : ts.IsChain R := by
  induction ts generalizing r with
  | nil => exact .nil
  | cons t ts ih =>
    obtain ⟨r', ht, hread⟩ := exists_next_of_read h
    rcases ts with _ | ⟨u, ts⟩
    · exact .singleton t
    · obtain ⟨r'', hu, -⟩ := exists_next_of_read hread
      exact .cons_cons (hnext ht hu) (ih hread)

/-- **Neighbouring tokens of a document.** No two values stand next to each other, and no comma
stands right before a closing bracket. -/
theorem isChain_mayPrecede {r : Reader} {ts : List Token} {v : Json} (h : r.read ts = some v) :
    ts.IsChain Token.MayPrecede :=
  isChain_of_read mayPrecede_of_next h

theorem isChain_isSeparator {r : Reader} {ts : List Token} {v : Json} (h : r.read ts = some v) :
    ts.IsChain fun t u ↦ u.isClosing = true → t.isSeparator = false := by
  refine isChain_of_read (fun {r r' r'' t u} ht hu hclosing ↦ ?_) h
  refine Bool.eq_false_iff.mpr fun hseparator ↦ ?_
  rw [next_of_isOwing (isOwing_of_next hseparator ht) hclosing] at hu
  exact absurd hu (by simp)

theorem isClosing_of_read_initial {t : Token} {ts : List Token} {v : Json}
    (h : initial.read (t :: ts) = some v) : t.isClosing = false := by
  obtain ⟨r, hnext, -⟩ := exists_next_of_read h
  refine Bool.eq_false_iff.mpr fun hclosing ↦ ?_
  rw [next_of_isOwing rfl hclosing] at hnext
  exact absurd hnext (by simp)

end Reader

end BarBridge.Json
