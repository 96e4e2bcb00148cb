import LoadPacing.Relay
import LoadPacing.Wait

-- A call takes the instance that was polled ready with it; its service goes on with a clone.
namespace LoadPacing

structure Backend where
  id : Nat
  ready : Bool
  deriving DecidableEq

def Backend.fresh (id : Nat) : Backend := ⟨id,false⟩

inductive Readiness where
  | ready
  | pending
  | failed (failure : Failure)
  deriving DecidableEq

structure Plan (α : Type) where
  request : Option α
  pauses : Nat
  outcome : Except Failure (Script α)

structure Issue (α : Type) where
  instanceId : Nat
  ready : Bool
  request : Option α
  deriving DecidableEq

inductive Call.Stage where
  | atGate (wait : Wait)
  | issued (pauses : Nat)
  deriving DecidableEq

structure Call (α : Type) where
  backend : Backend
  tuning : Tuning
  plan : Plan α
  stage : Call.Stage

def Call.issue (call : Call α) : Issue α := ⟨call.backend.id,call.backend.ready,call.plan.request⟩

structure Service where
  backend : Backend
  tuning : Tuning
  deriving DecidableEq

-- A layer over a shared regulator takes that one's bounds, rate and bucket.
def Tuning.fresh (settings : Settings) (now : Nanos) : Except Settings.Fault (Tuning × Regulator) :=
  match Regulator.new settings now with
  | .error fault => .error fault
  | .ok regulator => .ok (.of settings,regulator)

def Tuning.over (settings : Settings) : Except Settings.Fault Tuning :=
  match settings.validate with
  | .error fault => .error fault
  | .ok () => .ok (.of settings)

namespace Service

def regulatorFor (settings : Settings) (now : Nanos) :
    Option Regulator → Except Settings.Fault Regulator
  | some shared => .ok shared
  | none => Regulator.new settings now

def new (backend : Backend) (settings : Settings) (shared : Option Regulator) (now : Nanos) :
    Except Settings.Fault (Service × Regulator) :=
  match regulatorFor settings now shared with
  | .error fault => .error fault
  | .ok regulator =>
    match settings.validate with
    | .error fault => .error fault
    | .ok () => .ok (⟨backend,.of settings⟩,regulator)

def pollReady (service : Service) : Readiness → Service
  | .ready => { service with backend.ready := true }
  | .pending | .failed _ => service

-- None if the clock cannot hold it.
def deadline (service : Service) (now : Nanos) : Option Terms :=
  match service.tuning.timeout with
  | none => some .anyTime
  | some timeout => (Nanos.after now timeout).map fun instant => .by instant

def call (service : Service) (terms : Terms) (plan : Plan α) : Call α :=
  ⟨service.backend,service.tuning,plan,.atGate (.start terms .absent)⟩

end Service
end LoadPacing
