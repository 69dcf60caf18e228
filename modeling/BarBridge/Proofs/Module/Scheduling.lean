import BarBridge.Module.Members
import BarBridge.Proofs.Number.Truncation
import BarBridge.Proofs.Text.Trimming

/-!
# How a module comes by its interval

An interval is settled in two steps. A stated one is looked for first, and a default taken where
there is none; a default gives way afterwards to the polling interval for signals. `Schedule` says
in one step what comes of the two: there are four outcomes, each under a condition on what the
module states and on the options, and every module that is read from an object has one of them
(`schedule_ofMembers`). What is said later about intervals is said by going through the four.

## What a value states

The conditions do not refer to the way in which values are read. A value asks for a stream if it is
the word `once`, or a number less than one; the number may stand in a string, and blanks may stand
around it as around the word. Numbers are compared as rationals.
-/

namespace BarBridge

/-! ## Values -/

namespace Json

/-- A string that is the word `once`, blanks and the case of letters aside. -/
def SaysOnce (v : Json) : Prop :=
  ∃ s, v = .string s ∧
    ∃ word, Text.Pads s.toList word ∧ word.map Char.toLower = ['o', 'n', 'c', 'e']

/-- The number that a value gives, by itself or in a string between blanks. Every number that is
given is finite. -/
inductive Gives : Json → Binary64 → Prop where
  | number {n : Number} {x : Binary64} (h : n.toBinary64 = some x) : Gives (.number n) x
  | string {s : String} {word : List Char} {d : Decimal} {x : Binary64}
      (hpads : Text.Pads s.toList word) (hread : Decimal.read? word = some d)
      (hvalue : d.toBinary64 = some x) : Gives (.string s) x

/-- A value that asks for the command to be run once: the word for it, or a number that truncates to
zero or less. -/
def AsksForStream (v : Json) : Prop :=
  v.SaysOnce ∨ ∃ x, v.Gives x ∧ truncate x.value ≤ 0

/-- A value that states an interval at all. -/
def StatesInterval (v : Json) : Prop :=
  v.SaysOnce ∨ ∃ x, v.Gives x

theorem saysOnce_iff (v : Json) : v.SaysOnce ↔ Interval.isOnce v = true := by
  -- The word has visible letters, because they are visible once they are small ones.
  have hvisible : ∀ word : List Char, word.map Char.toLower = ['o', 'n', 'c', 'e'] →
      ∀ c ∈ word, Text.isBlank c = false := by
    intro word hword c hc
    have hletter : c.toLower ∈ ['o', 'n', 'c', 'e'] := hword ▸ List.mem_map_of_mem hc
    have hall : ∀ d ∈ ['o', 'n', 'c', 'e'], Text.IsVisible d := by
      simp only [List.forall_mem_cons]
      exact ⟨by decide, by decide, by decide, by decide, List.forall_mem_nil _⟩
    exact (Text.isVisible_of_toLower (hall _ hletter)).isBlank
  cases v with
  | string s =>
    have honce : (Json.string s).SaysOnce ↔
        ∃ word, Text.Pads s.toList word ∧ word.map Char.toLower = ['o', 'n', 'c', 'e'] := by
      simp [SaysOnce]
    rw [honce, Text.pads_and_iff hvisible, Interval.isOnce, beq_iff_eq]
  | _ => simp [SaysOnce, Interval.isOnce]

theorem gives_iff (v : Json) (x : Binary64) : v.Gives x ↔ Interval.stated? v = some x := by
  constructor
  · intro h
    cases h with
    | number h => exact h
    | string hpads hread hvalue =>
      have hblank := fun c hc ↦ (Decimal.isVisible_of_read? hread c hc).isBlank
      rw [Interval.stated?, hpads.trim_eq hblank, hread]
      exact hvalue
  · intro h
    cases v with
    | number n => exact .number h
    | string s =>
      obtain ⟨d, hread, hvalue⟩ := Option.bind_eq_some_iff.mp h
      exact .string (Text.pads_trim s.toList) hread hvalue
    | _ => contradiction

theorem Gives.unique {v : Json} {x y : Binary64} (hx : v.Gives x) (hy : v.Gives y) : x = y :=
  Option.some.inj (((gives_iff v x).mp hx).symm.trans ((gives_iff v y).mp hy))

end Json

/-! ## Reading an interval -/

namespace Interval

theorem resolve_of_asksForStream {v : Json} (h : v.AsksForStream) (default : UInt64) :
    resolve (some v) default = .once := by
  rw [resolve]
  obtain honce | ⟨x, hgives, hstops⟩ := h
  · rw [if_pos ((Json.saysOnce_iff v).mp honce)]
  · split
    · rfl
    · rw [(Json.gives_iff v x).mp hgives]
      exact if_pos ((Binary64.truncate_value_le_zero_iff x).mp hstops)

theorem resolve_of_gives {v : Json} {x : Binary64} (hword : ¬v.SaysOnce) (hgives : v.Gives x)
    (hpos : 0 < truncate x.value) (default : UInt64) :
    resolve (some v) default = .poll (capSeconds (truncate x.value).toNat) .stated := by
  have hruns : ¬(x.negative || x.whole == 0) = true :=
    mt (Binary64.truncate_value_le_zero_iff x).mpr (not_le.mpr hpos)
  have hnonneg : 0 ≤ x.value := zero_le_one.trans ((truncate_pos_iff _).mp hpos)
  rw [resolve, if_neg (mt (Json.saysOnce_iff v).mpr hword), (Json.gives_iff v x).mp hgives,
    Binary64.toNat_truncate_value hnonneg]
  exact if_neg hruns

theorem resolve_of_unstated {raw : Option Json} (h : ∀ v, raw = some v → ¬v.StatesInterval)
    (default : UInt64) : resolve raw default = fallback default := by
  cases raw with
  | none => rfl
  | some v =>
    have hword : ¬v.SaysOnce := fun honce ↦ h v rfl (.inl honce)
    have hnumber : stated? v = none := by
      rw [Option.eq_none_iff_forall_ne_some]
      intro x hx
      exact h v rfl (.inr ⟨x, (Json.gives_iff v x).mpr hx⟩)
    rw [resolve, if_neg (mt (Json.saysOnce_iff v).mpr hword), hnumber]

theorem onSignal_once (signalPoll : UInt64) : once.onSignal signalPoll = once := rfl

theorem onSignal_stated (signalPoll seconds : UInt64) :
    (poll seconds .stated).onSignal signalPoll = poll seconds .stated := rfl

theorem onSignal_fallback {signalPoll : UInt64} (h : signalPoll ≠ 0) (default : UInt64) :
    (fallback default).onSignal signalPoll = .poll (capSeconds signalPoll.toNat) .signalled := by
  rw [fallback, onSignal, if_neg h]

theorem onSignal_zero (i : Interval) : i.onSignal 0 = i := by
  unfold onSignal
  split <;> rfl

end Interval

/-! ## The four outcomes

What a module states it gets, whether or not it waits for a signal. Only where it states nothing do
the options have a part, and a signal decides then which of their two intervals is taken. -/

/-- How a module comes by its interval, given what it states, its signal and the options. -/
inductive Schedule (raw : Option Json) (signal : Option Int) (options : Options) :
    Interval → Prop where
  /-- The module asks for a stream. -/
  | stream {v : Json} (hraw : raw = some v) (hasks : v.AsksForStream) :
      Schedule raw signal options .once
  /-- The module states seconds. -/
  | stated {v : Json} {x : Binary64} (hraw : raw = some v) (hword : ¬v.SaysOnce)
      (hgives : v.Gives x) (hpos : 0 < truncate x.value) :
      Schedule raw signal options (.poll (capSeconds (truncate x.value).toNat) .stated)
  /-- The module states nothing and waits for a signal. -/
  | signalled (hraw : ∀ v, raw = some v → ¬v.StatesInterval) (hsignal : signal.isSome = true)
      (hpoll : options.signalPollInterval ≠ 0) :
      Schedule raw signal options (.poll (capSeconds options.signalPollInterval.toNat) .signalled)
  /-- The module states nothing, and no signal is polled for. -/
  | defaulted (hraw : ∀ v, raw = some v → ¬v.StatesInterval)
      (hsignal : signal = none ∨ options.signalPollInterval = 0) :
      Schedule raw signal options (.poll (capSeconds options.defaultInterval.toNat) .defaulted)

theorem stated_cases (raw : Option Json) :
    (∃ v, raw = some v ∧ v.AsksForStream) ∨
    (∃ v x, raw = some v ∧ ¬v.SaysOnce ∧ v.Gives x ∧ 0 < truncate x.value) ∨
    ∀ v, raw = some v → ¬v.StatesInterval := by
  by_cases hstated : ∃ v, raw = some v ∧ v.StatesInterval
  · obtain ⟨v, hraw, hstates⟩ := hstated
    by_cases hasks : v.AsksForStream
    · exact .inl ⟨v, hraw, hasks⟩
    · have hword : ¬v.SaysOnce := fun honce ↦ hasks (.inl honce)
      obtain ⟨x, hgives⟩ := hstates.resolve_left hword
      have hpos : 0 < truncate x.value := by
        rw [← not_le]
        intro hstops
        exact hasks (.inr ⟨x, hgives, hstops⟩)
      exact .inr (.inl ⟨v, x, hraw, hword, hgives, hpos⟩)
  · refine .inr (.inr fun v hraw hstates ↦ ?_)
    exact hstated ⟨v, hraw, hstates⟩

/-- **Every module has one of the four.** -/
theorem schedule_ofMembers (name source : String) (members : List (String × Json))
    (options : Options) :
    let m := CustomModule.ofMembers name source members options
    Schedule (members.lookup "interval") m.signal options m.interval := by
  intro m
  have hinterval : m.interval =
      if m.signal.isSome then
        (Interval.resolve (members.lookup "interval") options.defaultInterval).onSignal
          options.signalPollInterval
      else Interval.resolve (members.lookup "interval") options.defaultInterval :=
    rfl
  rw [hinterval]
  obtain ⟨v, hraw, hasks⟩ | ⟨v, x, hraw, hword, hgives, hpos⟩ | hraw :=
    stated_cases (members.lookup "interval")
  · rw [hraw, Interval.resolve_of_asksForStream hasks, Interval.onSignal_once, ite_self]
    exact .stream rfl hasks
  · rw [hraw, Interval.resolve_of_gives hword hgives hpos, Interval.onSignal_stated, ite_self]
    exact .stated rfl hword hgives hpos
  · rw [Interval.resolve_of_unstated hraw]
    by_cases hpoll : options.signalPollInterval = 0
    · rw [hpoll, Interval.onSignal_zero, ite_self]
      exact .defaulted hraw (.inr hpoll)
    · by_cases hsignal : m.signal.isSome = true
      · rw [if_pos hsignal, Interval.onSignal_fallback hpoll]
        exact .signalled hraw hsignal hpoll
      · rw [if_neg hsignal]
        exact .defaulted hraw (.inl (Option.not_isSome_iff_eq_none.mp hsignal))

/-- A module streams exactly if it asks to. -/
theorem Schedule.isStreaming_iff {raw : Option Json} {signal : Option Int} {options : Options}
    {i : Interval} (h : Schedule raw signal options i) :
    i.isStreaming = true ↔ ∃ v, raw = some v ∧ v.AsksForStream := by
  cases h with
  | stream hraw hasks => exact iff_of_true rfl ⟨_, hraw, hasks⟩
  | @stated v x hraw hword hgives hpos =>
    refine iff_of_false Bool.false_ne_true ?_
    rintro ⟨w, hw, hasks⟩
    obtain rfl : v = w := Option.some.inj (hraw.symm.trans hw)
    obtain honce | ⟨y, hy, hstops⟩ := hasks
    · exact hword honce
    · obtain rfl := hgives.unique hy
      exact absurd hpos (not_lt.mpr hstops)
  | signalled hraw | defaulted hraw =>
    refine iff_of_false Bool.false_ne_true ?_
    rintro ⟨v, hv, honce | ⟨x, hgives, -⟩⟩
    · exact hraw v hv (.inl honce)
    · exact hraw v hv (.inr ⟨x, hgives⟩)

end BarBridge
