import LoadPacing.Registry
import LoadPacing.Service

-- One regulator with its bucket, the services over it, the handles under way, and a clock that only actions move.
namespace LoadPacing

inductive Handle (α : Type) where
  | waiting (wait : Wait)
  | calling (call : Call α)
  | relaying (relay : Relay α)
  | bare (script : Script α)
  | finished

structure Session (α : Type) where
  now : Nanos
  regulator : Regulator
  tuning : Tuning
  services : List Service
  handles : Registry (Handle α)
  instances : Nat
  issued : Nat

-- What a step did at the bucket, reported, issued and let through, and what its control rounds came to.
structure Trace (α : Type) where
  ops : List Bucket.Op
  notices : List Notice
  issues : List (Issue α)
  passed : Nat
  verdicts : List Verdict

namespace Trace

def none : Trace α := ⟨[],[],[],0,[]⟩
def ofOps (ops : List Bucket.Op) : Trace α := ⟨ops,[],[],0,[]⟩
def ofPass (ops : List Bucket.Op) (issues : List (Issue α)) : Trace α := ⟨ops,[],issues,1,[]⟩
def ofNotices (notices : List Notice) : Trace α := ⟨[],notices,[],0,[]⟩

instance : Append (Trace α) :=
  ⟨fun a b => ⟨a.ops ++ b.ops,a.notices ++ b.notices,a.issues ++ b.issues,a.passed + b.passed,
    a.verdicts ++ b.verdicts⟩⟩

end Trace

inductive Progress where
  | pending
  | ready
  | stream
  | failed (failure : Failure)
  | overflow
  deriving DecidableEq

def Progress.ofOutcome : Wait.Outcome → Progress
  | .pending => .pending
  | .ready => .ready
  | .failed failure => .failed (.gate failure)
  | .overflow => .overflow

inductive Action (α : Type) where
  | advance (duration : Nanos)
  | setRate (rate : Binary64)
  | tryAcquire
  | drain (most : Nat)
  | acquire (id : Nat) (unpolled : Bool)
  | acquireBefore (id : Nat) (within : Int) (unpolled : Bool)
  | acquireCancellable (id : Nat) (given unpolled : Bool)
  | acquireAwait
  | cancel (id : Nat)
  | poll (id : Nat)
  | drop (id : Nat)
  -- Of a service, or of the session's own tuning.
  | observe (service : Option Nat) (samples : List Binary64)
  | observeDeadline (service : Option Nat)
  | contains (rate : Binary64)
  | stats
  | instanceOf (service : Nat)
  | clone (service : Nat)
  | layer
  | shareService (settings : Settings)
  | shareLayer (settings : Settings)
  | pollReady (service : Nat) (inner : Readiness)
  | call (id service : Nat) (plan : Plan α) (unpolled : Bool)
  | next (id : Nat)
  | collect (id : Nat)
  | callState (id : Nat)
  | unwrap (id : Nat)

structure Snapshot where
  lower : Binary64
  upper : Binary64
  current : Binary64
  lastCommit : Option Nanos
  gateRate : Binary64
  -- Every service of a session draws on its one bucket.
  oneGate : Bool
  deriving DecidableEq

inductive Answer (α : Type) where
  | done
  | flag (value : Bool)
  | count (value : Nat)
  | unpolled
  | progress (progress : Progress)
  | notWaiting
  | noHandle
  | noService
  | noStream
  | noStreamItems
  | unwrapped
  | verdict (verdict : Verdict)
  | snapshot (snapshot : Snapshot)
  | fault (fault : Settings.Fault)
  | item (item : Next α)
  | items (items : List (Next α))
  | callState (stage : Stage) (sizeHint : Nat × Nat)

namespace Session

abbrev Result (α β : Type) := β × Session α × Trace α

def lookup (s : Session α) (id : Nat) : Option (Handle α) := s.handles.find id

def forget (s : Session α) (id : Nat) : Session α := { s with handles := s.handles.without id }

def put (s : Session α) (id : Nat) (handle : Handle α) : Session α :=
  { s with handles := s.handles.put id handle }

def operate (s : Session α) (ops : List Bucket.Op) : Session α :=
  { s with regulator.bucket := s.regulator.bucket.run ops }

def withBucket (s : Session α) (bucket : Bucket) : Session α :=
  { s with regulator.bucket := bucket }

def abandon : Handle α → List Bucket.Op
  | .waiting wait => wait.abandon
  | .calling { stage := .atGate wait, .. } => wait.abandon
  | .calling { stage := .issued _, .. } => []
  | .relaying _ | .bare _ | .finished => []

def release (s : Session α) (id : Nat) : Result α Bool :=
  match s.lookup id with
  | none => (false,s,.none)
  | some handle => (true,(s.forget id).operate (abandon handle),.ofOps (abandon handle))

def round (s : Session α) (outcome : Verdict × Regulator × List Notice) : Result α Verdict :=
  (outcome.1,{ s with regulator := outcome.2.1 },⟨outcome.1.ops,outcome.2.2,[],0,[outcome.1]⟩)

end Session
end LoadPacing
