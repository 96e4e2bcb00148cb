import LoadPacing.Settings

-- The token bucket of the gate. A caller who finds less than one permit takes it on credit and waits for its instant.
namespace LoadPacing

structure Bucket where
  rate : Binary64
  burst : Binary64
  -- Negative while callers wait on credit.
  balance : Binary64
  refilled : Nanos
  deriving DecidableEq

inductive Terms where
  | anyTime
  | by (deadline : Int)
  deriving DecidableEq

def Terms.Accept : Terms → Nanos → Prop
  | .anyTime, _ => True
  | .by deadline, ready => ready ≤ deadline

instance (terms : Terms) (ready : Nanos) : Decidable (terms.Accept ready) := by
  cases terms <;> unfold Terms.Accept <;> infer_instance

inductive Booking where
  | booked (ready : Nanos)
  -- The permit would come too late; none was taken.
  | refused
  -- Past every representable time; none was taken either.
  | overflow
  deriving DecidableEq

def Booking.permits : Booking → Nat
  | .booked _ => 1
  | .refused | .overflow => 0

namespace Bucket

def new (rate burst : Binary64) (now : Nanos) : Except Settings.Fault Bucket :=
  if ¬ rate.Positive then .error (.rate rate)
  else if ¬ (burst.IsFinite ∧ 0 ≤ burst) then .error (.burst burst)
  else .ok ⟨rate,burst,1,now⟩

def capacity (b : Bucket) : Binary64 := max (b.burst * b.rate) 1

-- The clock may have been read before another caller's refill.
def refill (b : Bucket) (now : Nanos) : Bucket :=
  { b with
    balance := min (b.balance + Nanos.toSeconds (now - b.refilled) * b.rate) b.capacity
    refilled := max b.refilled now }

def debt (b : Bucket) : Binary64 := (1 - b.balance) / b.rate

def readyAt (b : Bucket) (now : Nanos) : Option Nanos :=
  if 1 ≤ b.balance then some now
  else match Nanos.ofSeconds b.debt with
    | .ok wait => Nanos.after now wait
    | .error _ => none

def take (b : Bucket) : Bucket := { b with balance := b.balance - 1 }

-- The refill stays whatever comes of the booking.
def reserve (b : Bucket) (now : Nanos) (terms : Terms) : Booking × Bucket :=
  match (b.refill now).readyAt now with
  | none => (.overflow,b.refill now)
  | some ready =>
    if terms.Accept ready then (.booked ready,(b.refill now).take) else (.refused,b.refill now)

def giveBack (b : Bucket) : Bucket := { b with balance := min (b.balance + 1) b.capacity }

def retune (b : Bucket) (rate : Binary64) : Bucket := if rate.Positive then { b with rate } else b

inductive Op where
  | reserve (now : Nanos) (terms : Terms)
  | giveBack (ready : Nanos)
  | retune (rate : Binary64)
  deriving DecidableEq

def apply (b : Bucket) : Op → Bucket
  | .reserve now terms => (b.reserve now terms).2
  | .giveBack _ => b.giveBack
  | .retune rate => b.retune rate

def run (b : Bucket) (ops : List Op) : Bucket := ops.foldl apply b

end Bucket
end LoadPacing
