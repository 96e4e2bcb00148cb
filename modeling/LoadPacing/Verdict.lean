import LoadPacing.Binary64.Text
import LoadPacing.Time

namespace LoadPacing

inductive Verdict where
  -- No usable reading, or a candidate past the range of finite numbers.
  | noSignal
  | outOfBounds (candidate : Binary64)
  | coolingDown (candidate : Binary64) (remaining : Nanos)
  | applied (previous current : Binary64)
  deriving DecidableEq

namespace Verdict

def isApplied : Verdict → Bool
  | .applied _ _ => true
  | _ => false

def name : Verdict → String
  | .noSignal => "NoSignal"
  | .outOfBounds _ => "OutOfBounds"
  | .coolingDown _ _ => "CoolingDown"
  | .applied _ _ => "Applied"

def text : Verdict → String
  | .noSignal => "NoSignal"
  | .outOfBounds candidate =>
    "OutOfBounds \x7b candidate: " ++ candidate.text .record ++ " \x7d"
  | .coolingDown candidate remaining =>
    "CoolingDown \x7b candidate: " ++ candidate.text .record ++ ", remaining: " ++
      remaining.text ++ " \x7d"
  | .applied previous current =>
    "Applied \x7b previous: " ++ previous.text .record ++ ", current: " ++
      current.text .record ++ " \x7d"

end Verdict
end LoadPacing
