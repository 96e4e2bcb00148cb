import LoadPacing.Bucket
import LoadPacing.Notice

-- The shared rate and the control rounds that move it. A commit moves the recorded rate and the bucket's together.
namespace LoadPacing

-- What each layer or service brings to a regulator that it shares.
structure Tuning where
  target : Binary64
  cooldown : Nanos
  timeout : Option Nanos
  deriving DecidableEq

def Tuning.of (settings : Settings) : Tuning :=
  ⟨settings.targetLoad,settings.cooldown,settings.acquireTimeout⟩

structure Regulator where
  lower : Binary64
  upper : Binary64
  current : Binary64
  lastCommit : Option Nanos
  bucket : Bucket
  deriving DecidableEq

inductive Signal where
  | response (report : Report)
  | deadline
  deriving DecidableEq

inductive Commit where
  | outOfBounds
  | coolingDown (remaining : Nanos)
  | committed (previous : Binary64)
  deriving DecidableEq

namespace Regulator

def new (settings : Settings) (now : Nanos) : Except Settings.Fault Regulator :=
  match settings.validate with
  | .error fault => .error fault
  | .ok () =>
    match Bucket.new settings.initialRate settings.maxBurst now with
    | .error fault => .error fault
    | .ok bucket =>
      .ok ⟨settings.lowerBound,settings.upperBound,settings.initialRate,none,bucket⟩

def Contains (r : Regulator) (rate : Binary64) : Prop := Settings.Within r.lower r.upper rate

instance (r : Regulator) (rate : Binary64) : Decidable (r.Contains rate) :=
  inferInstanceAs (Decidable (Settings.Within _ _ _))

-- Time since the last commit counts as zero for a clock read before it.
def cooling (r : Regulator) (now cooldown : Nanos) : Option Nanos :=
  match r.lastCommit with
  | none => none
  | some last => if now - last < cooldown then some (cooldown - (now - last)) else none

def adopt (r : Regulator) (rate : Binary64) (now : Nanos) : Regulator :=
  { r with current := rate, lastCommit := some now, bucket := r.bucket.retune rate }

def commit (r : Regulator) (candidate : Binary64) (now cooldown : Nanos) : Commit × Regulator :=
  if r.Contains candidate then
    match r.cooling now cooldown with
    | some remaining => (.coolingDown remaining,r)
    | none => (.committed r.current,r.adopt candidate now)
  else (.outOfBounds,r)

def settle (r : Regulator) (tuning : Tuning) (now : Nanos) (candidate : Binary64) :
    Verdict × Regulator × List Notice :=
  match r.commit candidate now tuning.cooldown with
  | (.outOfBounds,r) =>
    (.outOfBounds candidate,r,[.rateOutOfBounds candidate r.lower r.upper])
  | (.coolingDown remaining,r) =>
    (.coolingDown candidate remaining,r,[.rateCoolingDown candidate remaining])
  | (.committed previous,r) =>
    (.applied previous candidate,r,[.rateAdjusted previous candidate])

-- The load is reported before the candidate is known.
def observe (r : Regulator) (tuning : Tuning) (now : Nanos) (samples : List Binary64) :
    Verdict × Regulator × List Notice :=
  match Load.busiest samples with
  | none => (.noSignal,r,[])
  | some busiest =>
    let candidate := Load.nextRate samples tuning.target r.bucket.rate
    if candidate.IsFinite then
      let settled := r.settle tuning now candidate
      (settled.1,settled.2.1,.loadObserved busiest samples.length :: settled.2.2)
    else (.noSignal,r,[.loadObserved busiest samples.length])

def observeDeadline (r : Regulator) (tuning : Tuning) (now : Nanos) :
    Verdict × Regulator × List Notice :=
  let observed := r.observe tuning now [Load.overload]
  (observed.1,observed.2.1,.deadlineOverload :: observed.2.2)

def receive (r : Regulator) (tuning : Tuning) (now : Nanos) : Signal → Verdict × Regulator × List Notice
  | .response report =>
    let observed := r.observe tuning now (Load.sample report.readings)
    (observed.1,observed.2.1,Notice.ofDropped report.readings ++ observed.2.2)
  | .deadline => r.observeDeadline tuning now

-- Beside a stream the outcome is reported too, unless there was no signal.
def hear (r : Regulator) (tuning : Tuning) (now : Nanos) (signal : Signal) :
    Verdict × Regulator × List Notice :=
  let received := r.receive tuning now signal
  (received.1,received.2.1,
    received.2.2 ++ if received.1 = .noSignal then [] else [.roundFinished received.1])

end Regulator

def Verdict.ops : Verdict → List Bucket.Op
  | .applied _ current => [.retune current]
  | _ => []

end LoadPacing
