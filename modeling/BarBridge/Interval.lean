import BarBridge.Json.Value
import BarBridge.Number.Decimal
import BarBridge.Text.Blank

/-!
# When a command runs

A module either polls, its command being run again after a number of seconds, or runs its command
once and reads the output as a stream. The interval is stated as a number, as a number in a string,
or as the word `once`; a number that is zero or less once its fraction is dropped means the same as
the word. Anything else counts as not stated.

A polling interval keeps track of where it came from, because a default and an interval that stands
in for a signal are announced to the user, while a stated one is not. The three origins exclude each
other, and a streaming module has none.

Seconds are capped so that they can be turned into milliseconds within 64 bits.
-/

namespace BarBridge

/-- Where the seconds of a polling interval came from. -/
inductive Origin where
  | stated
  | defaulted
  /-- Stands in for the signal that the module waits for. -/
  | signalled
  deriving DecidableEq, Repr

inductive Interval where
  | once
  | poll (seconds : UInt64) (origin : Origin)
  deriving DecidableEq, Repr

/-- The largest number of seconds whose milliseconds fit 64 bits. -/
def secondsLimit : Nat := (UInt64.size - 1) / 1000

/-- A number of seconds, held at the limit. -/
def capSeconds (n : Nat) : UInt64 :=
  UInt64.ofNat (min n secondsLimit)

/-- The milliseconds of a number of seconds, held at the largest 64-bit number. -/
def milliseconds (seconds : UInt64) : UInt64 :=
  UInt64.ofNat (min (1000 * seconds.toNat) (UInt64.size - 1))

namespace Interval

/-- The interval of a module that states none. -/
def fallback (default : UInt64) : Interval :=
  .poll (capSeconds default.toNat) .defaulted

/-- Whether a value is the word `once`, blanks and the case of letters aside. -/
def isOnce : Json → Bool
  | .string s => (Text.trim s.toList).map Char.toLower == ['o', 'n', 'c', 'e']
  | _ => false

/-- The number that a value states, given as a number or in a string. -/
def stated? : Json → Option Binary64
  | .number n => n.toBinary64
  | .string s => Decimal.read? (Text.trim s.toList) >>= Decimal.toBinary64
  | _ => none

/-- The interval of a stated number of seconds. -/
def ofNumber (x : Binary64) : Interval :=
  if x.negative || x.whole == 0 then .once else .poll (capSeconds x.whole) .stated

/-- The interval that a raw value stands for, `none` being a module without one. -/
def resolve (raw : Option Json) (default : UInt64) : Interval :=
  match raw with
  | none => fallback default
  | some v =>
    if isOnce v then .once
    else
      match stated? v with
      | some x => ofNumber x
      | none => fallback default

/-- The interval of a module that waits for a signal: a default gives way to the polling interval
for signals, unless that is zero. -/
def onSignal (signalPoll : UInt64) : Interval → Interval
  | .poll seconds .defaulted =>
    if signalPoll = 0 then .poll seconds .defaulted
    else .poll (capSeconds signalPoll.toNat) .signalled
  | i => i

/-- Seconds between runs; a streaming module has zero. -/
def seconds : Interval → UInt64
  | once => 0
  | poll s _ => s

def isDefaulted : Interval → Bool
  | poll _ .defaulted => true
  | _ => false

def isSignalled : Interval → Bool
  | poll _ .signalled => true
  | _ => false

def isStreaming : Interval → Bool
  | once => true
  | poll _ _ => false

/-- The word for the way of running. -/
def modeName : Interval → String
  | once => "once"
  | poll _ _ => "poll"

end Interval

/-! ## Caps

Both caps are taken of natural numbers, before these are turned into 64 bits, so that nothing wraps
around. -/

theorem secondsLimit_lt : secondsLimit < UInt64.size := by decide

theorem toNat_capSeconds (n : Nat) : (capSeconds n).toNat = min n secondsLimit := by
  have h : min n secondsLimit < UInt64.size :=
    Nat.lt_of_le_of_lt (Nat.min_le_right _ _) secondsLimit_lt
  simp [capSeconds, UInt64.toNat_ofNat_of_lt' h]

theorem toNat_milliseconds (s : UInt64) :
    (milliseconds s).toNat = min (1000 * s.toNat) (UInt64.size - 1) := by
  have h : min (1000 * s.toNat) (UInt64.size - 1) < UInt64.size := by
    simp only [UInt64.size]
    omega
  simp only [milliseconds]
  exact UInt64.toNat_ofNat_of_lt' h

end BarBridge
