import LoadPacing.Load
import LoadPacing.Verdict

namespace LoadPacing

inductive Metric.Change where
  | increment (amount : Nat)
  | set (value : Binary64)
  | record (value : Binary64)
  deriving DecidableEq

structure Metric where
  name : String
  label : Option (String × String)
  change : Metric.Change
  deriving DecidableEq

def Metric.key (m : Metric) : String :=
  match m.label with
  | none => m.name
  | some (label,value) => m.name ++ "\x7b" ++ label ++ "=" ++ value ++ "\x7d"

inductive Level where
  | trace | debug | info | warn
  deriving DecidableEq

def Level.name : Level → String
  | .trace => "TRACE"
  | .debug => "DEBUG"
  | .info => "INFO"
  | .warn => "WARN"

inductive FieldValue where
  | number (value : Binary64)
  | count (value : Nat)
  | text (value : String)
  deriving DecidableEq

structure LogEntry where
  level : Level
  target : String
  message : String
  fields : List (String × FieldValue)
  deriving DecidableEq

inductive Notice where
  | loadObserved (busiest : Binary64) (locations : Nat)
  | rateAdjusted (previous current : Binary64)
  | rateOutOfBounds (candidate lower upper : Binary64)
  | rateCoolingDown (candidate : Binary64) (remaining : Nanos)
  | deadlineOverload
  | roundFinished (verdict : Verdict)
  | readingDropped (reading : Reading)
  | invalidRate (rate : Binary64)
  | callStarted
  | callCompleted
  deriving DecidableEq

namespace Notice

def ofDropped (readings : List Reading) : List Notice :=
  (Load.dropped readings).map .readingDropped

def skipped (reason : String) : Metric :=
  ⟨"cpu_throttle_adjustments_skipped_total",some ("reason",reason),.increment 1⟩

def metrics : Notice → List Metric
  | .loadObserved busiest _ => [⟨"cpu_throttle_observed_cpu",none,.record busiest⟩]
  | .rateAdjusted _ current =>
    [⟨"cpu_throttle_rate",none,.set current⟩,⟨"cpu_throttle_adjustments_total",none,.increment 1⟩]
  | .rateOutOfBounds _ _ _ => [skipped "out_of_bounds"]
  | .rateCoolingDown _ _ => [skipped "cooldown"]
  | .deadlineOverload => [⟨"cpu_throttle_deadline_signals_total",none,.increment 1⟩]
  | .roundFinished _ | .readingDropped _ | .invalidRate _ | .callStarted | .callCompleted => []

def stats (level : Level) (message : String) (fields : List (String × FieldValue)) : LogEntry :=
  ⟨level,"cpu_throttle::stats",message,fields⟩

def entry : Notice → LogEntry
  | .loadObserved busiest locations =>
    stats .trace "Load observed." [("max_cpu_percent",.number busiest),("locations",.count locations)]
  | .rateAdjusted previous current =>
    stats .info "Rate adjusted." [("previous_rate",.number previous),("new_rate",.number current)]
  | .rateOutOfBounds candidate lower upper =>
    stats .debug "Calculated rate is not within bounds; keeping current rate."
      [("candidate",.number candidate),("lower_bound",.number lower),("upper_bound",.number upper)]
  | .rateCoolingDown candidate remaining =>
    stats .trace "Rate adjustment skipped during cooldown."
      [("candidate",.number candidate),("remaining_ms",.count remaining.floorMilli)]
  | .deadlineOverload => stats .warn "Deadline exceeded; treating backend as overloaded." []
  | .roundFinished verdict =>
    stats .trace "Control loop round finished." [("adjustment",.text verdict.text)]
  | .readingDropped reading =>
    stats .trace "Dropping unusable CPU reading."
      [("location",.text reading.location),("cpu_percent",.number reading.percent)]
  | .invalidRate rate =>
    ⟨.warn,"cpu_throttle::rate_limiting::limiter","Ignoring invalid rate limiter rate.",
      [("rate",.number rate)]⟩
  | .callStarted => stats .trace "Streaming call started." []
  | .callCompleted => stats .trace "Streaming call completed." []

end Notice
end LoadPacing
