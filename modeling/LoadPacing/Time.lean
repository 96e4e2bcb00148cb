import LoadPacing.Binary64.Arithmetic

-- Durations and instants in whole nanoseconds, an instant from the start of the session.
namespace LoadPacing

abbrev Nanos := Nat

namespace Nanos

def perSecond : Nat := Nat.pow 10 9
def perMilli : Nat := Nat.pow 10 6

def secondsLimit : Nat := Nat.pow 2 64

inductive ConversionFault where
  | negative
  | tooLargeOrNaN
  deriving DecidableEq

def ConversionFault.message : ConversionFault → String
  | .negative => "cannot convert float seconds to Duration: value is negative"
  | .tooLargeOrNaN => "cannot convert float seconds to Duration: value is either too big or NaN"

-- A half goes to the even nanosecond. Negative zero is zero.
def ofSeconds : Binary64 → Except ConversionFault Nanos
  | .nan => .error .tooLargeOrNaN
  | .infinite negative => .error (if negative then .negative else .tooLargeOrNaN)
  | .finite negative units _ =>
    if negative ∧ units ≠ 0 then .error .negative
    else
      let nanos := Binary64.roundQuotient (units * perSecond) Binary64.perOne
      if nanos < secondsLimit * perSecond then .ok nanos else .error .tooLargeOrNaN

-- Whole seconds and the fraction are converted apart and added.
def toSeconds (d : Nanos) : Binary64 :=
  Binary64.ofNat (d / perSecond) + Binary64.ofNat (d % perSecond) / Binary64.ofNat perSecond

-- The clock counts signed 64-bit seconds.
def horizon : Nat := Nat.pow 2 63 * perSecond

def after (now wait : Nanos) : Option Nanos :=
  if now + wait < horizon then some (now + wait) else none

def floorMilli (t : Nanos) : Nat := t / perMilli
def ceilMilli (t : Nanos) : Nat := (t + (perMilli - 1)) / perMilli

-- The timer ticks once a millisecond, its instants rounded up and the clock down, and it stops at the last tick: from
-- there on every later instant has come.
def lastTick : Nat := Nat.pow 2 64 - 3
def tickOfClock (now : Nanos) : Nat := min now.floorMilli lastTick
def tickOfWait (ready : Nanos) : Nat := min ready.ceilMilli lastTick

def Rung (ready now : Nanos) : Prop := tickOfWait ready ≤ tickOfClock now

instance (ready now : Nanos) : Decidable (Rung ready now) := inferInstanceAs (Decidable (_ ≤ _))

def wake (ready now : Nanos) : Nanos := now + (tickOfWait ready - tickOfClock now) * perMilli

def trimZeros (digits : List Char) : List Char := (digits.reverse.dropWhile (· = '0')).reverse

def decimalText (whole fraction places : Nat) : List Char :=
  let digits := Nat.toDigits 10 fraction
  match trimZeros (List.replicate (places - digits.length) '0' ++ digits) with
  | [] => Nat.toDigits 10 whole
  | shown => Nat.toDigits 10 whole ++ '.' :: shown

def text (d : Nanos) : String :=
  if perSecond ≤ d then String.ofList (decimalText (d / perSecond) (d % perSecond) 9) ++ "s"
  else if perMilli ≤ d then String.ofList (decimalText (d / perMilli) (d % perMilli) 6) ++ "ms"
  else if 1000 ≤ d then String.ofList (decimalText (d / 1000) (d % 1000) 3) ++ "µs"
  else String.ofList (Nat.toDigits 10 d) ++ "ns"

end Nanos
end LoadPacing
