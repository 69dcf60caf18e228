import BarBridge.Proofs.Module.Scheduling

/-!
# What holds of every module that is read

Nothing downstream of reading asks again whether a number is in range or a command empty, and
`CustomModule.WellFormed` is what may be relied on instead. It is about all fields at once: the
seconds, where they came from and the signal belong together, and it takes the options to say how.

The part on intervals goes through the four outcomes of `Schedule`. The other settings are each
characterised by the values that they take, and a length is shown to be the integer that the object
has, so that nothing is cut off where it is put into 32 bits.
-/

namespace BarBridge

/-! ## Caps

There are two caps, on the seconds and on the milliseconds. The first is chosen so that behind it
the second does nothing. -/

theorem capSeconds_le (n : Nat) : (capSeconds n).toNat ≤ secondsLimit := by
  rw [toNat_capSeconds]
  exact Nat.min_le_right _ _

theorem toNat_eq_zero_iff (s : UInt64) : s.toNat = 0 ↔ s = 0 := by
  rw [← UInt64.toNat_inj, UInt64.toNat_zero]

theorem capSeconds_eq_zero_iff (n : Nat) : capSeconds n = 0 ↔ n = 0 := by
  have hlimit : 0 < secondsLimit := by decide
  rw [← toNat_eq_zero_iff, toNat_capSeconds]
  omega

theorem milliseconds_fit {n : Nat} (h : n ≤ secondsLimit) : 1000 * n < UInt64.size := by
  have hlimit : 1000 * secondsLimit < UInt64.size := by decide
  exact Nat.lt_of_le_of_lt (Nat.mul_le_mul_left _ h) hlimit

theorem toNat_milliseconds_of_le {s : UInt64} (h : s.toNat ≤ secondsLimit) :
    (milliseconds s).toNat = 1000 * s.toNat := by
  have hfits := milliseconds_fit h
  rw [toNat_milliseconds, Nat.min_eq_left (by omega)]

/-! ## Intervals -/

theorem Interval.of_isStreaming {i : Interval} (h : i.isStreaming = true) :
    i.seconds = 0 ∧ i.isDefaulted = false ∧ i.isSignalled = false := by
  cases i with
  | once => exact ⟨rfl, rfl, rfl⟩
  | poll => contradiction

theorem Interval.isStreaming_of_isDefaulted {i : Interval} (h : i.isDefaulted = true) :
    i.isStreaming = false := by
  cases i with
  | once => contradiction
  | poll => rfl

theorem Interval.isSignalled_of_isDefaulted {i : Interval} (h : i.isDefaulted = true) :
    i.isSignalled = false := by
  cases i with
  | once => contradiction
  | poll seconds origin =>
    cases origin with
    | defaulted => rfl
    | _ => contradiction

section

variable {raw : Option Json} {signal : Option Int} {options : Options} {i : Interval}

theorem Schedule.seconds_le (h : Schedule raw signal options i) :
    i.seconds.toNat ≤ secondsLimit := by
  cases h with
  | stream => exact Nat.zero_le _
  | _ => exact capSeconds_le _

theorem Schedule.of_isSignalled (h : Schedule raw signal options i) (hi : i.isSignalled = true) :
    signal.isSome = true ∧ 0 < options.signalPollInterval ∧
      i.seconds.toNat = min options.signalPollInterval.toNat secondsLimit := by
  cases h with
  | signalled _ hsignal hpoll =>
    exact ⟨hsignal, UInt64.pos_iff_ne_zero.mpr hpoll, toNat_capSeconds _⟩
  | _ => contradiction

theorem Schedule.of_isDefaulted (h : Schedule raw signal options i) (hi : i.isDefaulted = true) :
    i.seconds.toNat = min options.defaultInterval.toNat secondsLimit ∧
      (signal = none ∨ options.signalPollInterval = 0) := by
  cases h with
  | defaulted _ hsignal => exact ⟨toNat_capSeconds _, hsignal⟩
  | _ => contradiction

end

/-! ## Single settings

A setting is looked up, and what is found goes through one reader after another, any of which may
have no answer. Turned around, there is an answer for values of one shape only, and this shape is
what is stated. -/

theorem Json.eq_number_of_number? {v : Json} {n : Number} (h : v.number? = some n) :
    v = .number n := by
  cases v with
  | number n' => exact congrArg Json.number (Option.some.inj h)
  | _ => contradiction

theorem Number.toUnsigned?_eq_some_iff (n : Number) (k : Nat) :
    n.toUnsigned? = some k ↔ n = .int k ∧ k < UInt64.size := by
  cases n with
  | real x => simp [Number.toUnsigned?]
  | int i =>
    rw [Number.toUnsigned?, Number.int.injEq]
    split
    · next hrange =>
      rw [Option.some.injEq]
      omega
    · next hrange =>
      refine iff_of_false (by simp) ?_
      rintro ⟨rfl, hk⟩
      exact hrange ⟨Int.natCast_nonneg k, by exact_mod_cast hk⟩

namespace CustomModule

section

variable {members : List (String × Json)} {key : String}

theorem filledSetting_ne : filledSetting members key ≠ some "" := by
  intro h
  exact absurd rfl (of_decide_eq_true (Option.filter_eq_some_iff.mp h).2)

/-- A setting in seconds takes the numbers that are not negative. -/
theorem secondsSetting_eq_some_iff (s : UInt64) :
    secondsSetting members key = some s ↔
      ∃ n x, members.lookup key = some (.number n) ∧ n.toBinary64 = some x ∧ 0 ≤ x.value ∧
        s = capSeconds (truncate x.value).toNat := by
  constructor
  · intro h
    obtain ⟨v, hv, hnumber⟩ := Option.bind_eq_some_iff.mp h
    obtain ⟨n, hn, hbinary⟩ := Option.bind_eq_some_iff.mp hnumber
    obtain ⟨x, hx, hcapped⟩ := Option.bind_eq_some_iff.mp hbinary
    obtain rfl := Json.eq_number_of_number? hn
    -- The sign is looked at while the fraction is still there, and a zero may have one.
    split at hcapped
    · contradiction
    · next hsign =>
      have hnonneg : 0 ≤ x.value :=
        (Binary64.value_nonneg_iff x).mpr (eq_false_of_ne_true hsign)
      refine ⟨n, x, hv, hx, hnonneg, ?_⟩
      rw [Binary64.toNat_truncate_value hnonneg]
      exact (Option.some.inj hcapped).symm
  · rintro ⟨n, x, hv, hx, hnonneg, rfl⟩
    refine Option.bind_eq_some_iff.mpr ⟨_, hv, Option.bind_eq_some_iff.mpr ⟨_, rfl,
      Option.bind_eq_some_iff.mpr ⟨_, hx, ?_⟩⟩⟩
    rw [(Binary64.value_nonneg_iff x).mp hnonneg, if_neg Bool.false_ne_true,
      Binary64.toNat_truncate_value hnonneg]

theorem lengthSetting_eq_some_iff (length : UInt32) :
    lengthSetting members key = some length ↔
      members.lookup key = some (.number (.int length.toNat)) ∧ 0 < length.toNat := by
  constructor
  · intro h
    obtain ⟨v, hv, hnumber⟩ := Option.bind_eq_some_iff.mp h
    obtain ⟨n, hn, hunsigned⟩ := Option.bind_eq_some_iff.mp hnumber
    obtain ⟨k, hk, hlength⟩ := Option.bind_eq_some_iff.mp hunsigned
    obtain rfl := Json.eq_number_of_number? hn
    obtain ⟨rfl, -⟩ := (Number.toUnsigned?_eq_some_iff n k).mp hk
    split at hlength
    · next hrange =>
      obtain rfl := Option.some.inj hlength
      have hvalue : (UInt32.ofNat k).toNat = k := UInt32.toNat_ofNat_of_lt' hrange.2
      rw [hvalue]
      exact ⟨hv, hrange.1⟩
    · cases hlength
  · rintro ⟨hv, hpos⟩
    have hlt : length.toNat < UInt32.size := length.toNat_lt
    have hunsigned : (Number.int length.toNat).toUnsigned? = some length.toNat :=
      (Number.toUnsigned?_eq_some_iff _ _).mpr ⟨rfl, hlt.trans (by decide)⟩
    refine Option.bind_eq_some_iff.mpr ⟨_, hv, Option.bind_eq_some_iff.mpr ⟨_, rfl,
      Option.bind_eq_some_iff.mpr ⟨_, hunsigned, ?_⟩⟩⟩
    rw [if_pos ⟨hpos, hlt⟩, UInt32.ofNat_toNat]

end

/-! ## All settings together -/

/-- The commands for clicks and for the wheel. -/
def handlerCommands (m : CustomModule) : List (Option String) :=
  [m.onClick, m.onClickRight, m.onClickMiddle, m.onScrollUp, m.onScrollDown]

/-- A length is the integer of its setting, and lies in the range of 32 bits without zero. -/
def IsLength (members : List (String × Json)) (key : String) (length : UInt32) : Prop :=
  members.lookup key = some (.number (.int length.toNat)) ∧
    1 ≤ length.toNat ∧ length.toNat ≤ 2 ^ 32 - 1

/-- What holds of a module that is read from an object under some options. -/
structure WellFormed (members : List (String × Json)) (options : Options) (m : CustomModule) :
    Prop where
  /-- The seconds between runs can be turned into milliseconds. -/
  seconds : m.interval.seconds.toNat ≤ secondsLimit ∧
    1000 * m.interval.seconds.toNat < UInt64.size
  /-- So can the seconds before a restart. -/
  restart : ∀ s, m.restartInterval = some s →
    s.toNat ≤ secondsLimit ∧ 1000 * s.toNat < UInt64.size
  /-- A streaming module has no seconds, and none that stand in for anything. -/
  streaming : m.interval.isStreaming = true →
    m.interval.seconds = 0 ∧ m.interval.isDefaulted = false ∧ m.interval.isSignalled = false
  exclusive : ¬(m.interval.isDefaulted = true ∧ m.interval.isSignalled = true)
  /-- Seconds that stand in for a signal are those of the options. -/
  signalled : m.interval.isSignalled = true →
    m.signal.isSome = true ∧ 0 < options.signalPollInterval ∧
      m.interval.seconds.toNat = min options.signalPollInterval.toNat secondsLimit
  /-- A default is that of the options, and taken where no signal is polled for. -/
  defaulted : m.interval.isDefaulted = true →
    m.interval.isStreaming = false ∧
      m.interval.seconds.toNat = min options.defaultInterval.toNat secondsLimit ∧
      (m.signal = none ∨ options.signalPollInterval = 0)
  format : m.format ≠ ""
  maxLength : ∀ length, m.maxLength = some length → IsLength members "max-length" length
  minLength : ∀ length, m.minLength = some length → IsLength members "min-length" length
  commands : ∀ command ∈ m.handlerCommands, command ≠ some ""

theorem isLength_of_lengthSetting {members : List (String × Json)} {key : String}
    {length : UInt32} (h : lengthSetting members key = some length) :
    IsLength members key length := by
  obtain ⟨hlookup, hpos⟩ := (lengthSetting_eq_some_iff length).mp h
  have hlt := length.toNat_lt
  exact ⟨hlookup, hpos, by omega⟩

theorem restart_le {members : List (String × Json)} {key : String} {s : UInt64}
    (h : secondsSetting members key = some s) : s.toNat ≤ secondsLimit := by
  obtain ⟨n, x, -, -, -, rfl⟩ := (secondsSetting_eq_some_iff s).mp h
  exact capSeconds_le _

theorem format_ne (name source : String) (members : List (String × Json)) (options : Options) :
    (ofMembers name source members options).format ≠ "" := by
  have hformat : (ofMembers name source members options).format =
      (filledSetting members "format").getD plainFormat :=
    rfl
  rw [hformat]
  cases hfilled : filledSetting members "format" with
  | none => decide
  | some format =>
    rintro rfl
    exact filledSetting_ne hfilled

theorem handlerCommands_ne (name source : String) (members : List (String × Json))
    (options : Options) :
    ∀ command ∈ (ofMembers name source members options).handlerCommands, command ≠ some "" := by
  simp only [handlerCommands, List.forall_mem_cons]
  exact ⟨filledSetting_ne, filledSetting_ne, filledSetting_ne, filledSetting_ne, filledSetting_ne,
    List.forall_mem_nil _⟩

/-- **Every module that is read is well formed**, whatever its object and the options are. -/
theorem wellFormed_ofMembers (name source : String) (members : List (String × Json))
    (options : Options) :
    (ofMembers name source members options).WellFormed members options := by
  have hschedule := schedule_ofMembers name source members options
  exact {
    seconds := ⟨hschedule.seconds_le, milliseconds_fit hschedule.seconds_le⟩
    restart := fun s hs ↦ ⟨restart_le hs, milliseconds_fit (restart_le hs)⟩
    streaming := Interval.of_isStreaming
    exclusive := by
      rintro ⟨hdefaulted, hsignalled⟩
      rw [Interval.isSignalled_of_isDefaulted hdefaulted] at hsignalled
      contradiction
    signalled := hschedule.of_isSignalled
    defaulted := by
      intro hdefaulted
      exact ⟨Interval.isStreaming_of_isDefaulted hdefaulted, hschedule.of_isDefaulted hdefaulted⟩
    format := format_ne name source members options
    maxLength := fun length hlength ↦ isLength_of_lengthSetting hlength
    minLength := fun length hlength ↦ isLength_of_lengthSetting hlength
    commands := handlerCommands_ne name source members options }

end CustomModule

end BarBridge
