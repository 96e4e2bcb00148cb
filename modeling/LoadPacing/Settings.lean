import LoadPacing.Binary64.Text
import LoadPacing.Time

namespace LoadPacing

structure Settings where
  -- Permits per second before any feedback has arrived.
  initialRate : Binary64
  -- In percent.
  targetLoad : Binary64
  cooldown : Nanos
  lowerBound : Binary64
  upperBound : Binary64
  -- Seconds worth of permits.
  maxBurst : Binary64
  -- The longest a call waits at the gate; none: any time.
  acquireTimeout : Option Nanos
  deriving DecidableEq

namespace Settings

def default : Settings where
  initialRate := 10000
  targetLoad := 70
  cooldown := 60 * Nanos.perSecond
  lowerBound := 10
  upperBound := 100000
  maxBurst := 1
  acquireTimeout := none

inductive Fault where
  | bounds (lower upper : Binary64)
  | initialRate (value lower upper : Binary64)
  | target (value : Binary64)
  | rate (value : Binary64)
  | burst (secs : Binary64)
  deriving DecidableEq

def Fault.message : Fault → String
  | .bounds lower upper =>
    "rate bounds must satisfy 0 < lower < upper, got [" ++ lower.text .message ++ ", " ++
      upper.text .message ++ "]"
  | .initialRate value lower upper =>
    "initial rate " ++ value.text .message ++ " is outside [" ++ lower.text .message ++ ", " ++
      upper.text .message ++ "]"
  | .target value => "target cpu must be within (0, 100], got " ++ value.text .message
  | .rate value => "rate must be a positive number of permits per second, got " ++ value.text .message
  | .burst secs => "max burst must be a non-negative number of seconds, got " ++ secs.text .message

def Within (lower upper rate : Binary64) : Prop := lower ≤ rate ∧ rate ≤ upper

instance (lower upper rate : Binary64) : Decidable (Within lower upper rate) :=
  inferInstanceAs (Decidable (_ ∧ _))

-- The first check that fails names the fault.
def validate (s : Settings) : Except Fault Unit :=
  if ¬ s.lowerBound.Positive ∨ ¬ s.upperBound.Positive ∨ s.upperBound ≤ s.lowerBound then
    .error (.bounds s.lowerBound s.upperBound)
  else if ¬ Within s.lowerBound s.upperBound s.initialRate then
    .error (.initialRate s.initialRate s.lowerBound s.upperBound)
  else if ¬ s.targetLoad.Positive ∨ 100 < s.targetLoad then .error (.target s.targetLoad)
  else if ¬ s.maxBurst.IsFinite ∨ s.maxBurst < 0 then .error (.burst s.maxBurst)
  else .ok ()

end Settings
end LoadPacing
