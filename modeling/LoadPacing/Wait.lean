import LoadPacing.Bucket
import LoadPacing.Failure

-- The permit is booked at the first poll. A wait that ends or is abandoned before its instant gives it back.
namespace LoadPacing

inductive CancelSignal where
  | absent
  | silent
  | given
  deriving DecidableEq

structure Wait where
  terms : Terms
  cancel : CancelSignal
  booked : Option Nanos
  deriving DecidableEq

inductive Wait.Outcome where
  | ready
  | pending
  | failed (failure : GateFailure)
  | overflow
  deriving DecidableEq

structure Wait.Polled where
  outcome : Wait.Outcome
  wait : Wait
  bucket : Bucket
  ops : List Bucket.Op
  deriving DecidableEq

namespace Wait

def start (terms : Terms) (cancel : CancelSignal) : Wait := ⟨terms,cancel,none⟩

def hold (w : Wait) (ready : Nanos) (bucket : Bucket) (ops : List Bucket.Op) : Polled :=
  if w.cancel = .given then ⟨.failed .cancelled,w,bucket.giveBack,ops ++ [.giveBack ready]⟩
  else ⟨.pending,{ w with booked := some ready },bucket,ops⟩

-- The first poll compares instants exactly, later ones go by the timer alone. Being ready wins over the cancel signal.
def poll (w : Wait) (now : Nanos) (b : Bucket) : Polled :=
  match w.booked with
  | some ready => if Nanos.Rung ready now then ⟨.ready,w,b,[]⟩ else w.hold ready b []
  | none =>
    let ops := [Bucket.Op.reserve now w.terms]
    match b.reserve now w.terms with
    | (.overflow,b) => ⟨.overflow,w,b,ops⟩
    | (.refused,b) => ⟨.failed .timedOut,w,b,ops⟩
    | (.booked ready,b) =>
      if ready ≤ now ∨ Nanos.Rung ready now then ⟨.ready,w,b,ops⟩
      else w.hold ready b ops

-- Dropping a wait returns a permit that it still holds, also when its time has come.
def abandon (w : Wait) : List Bucket.Op :=
  match w.booked with
  | none => []
  | some ready => [.giveBack ready]

end Wait
end LoadPacing
