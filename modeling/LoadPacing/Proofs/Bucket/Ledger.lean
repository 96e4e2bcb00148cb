import LoadPacing.Proofs.Bucket.Steps

-- The permits that are out, told by the instants that they were booked for.
namespace LoadPacing

@[simp] def Booking.held : Booking → List Nanos
  | .booked ready => [ready]
  | .refused | .overflow => []

theorem Booking.held_length (booking : Booking) : booking.held.length = booking.permits := by
  cases booking <;> rfl

namespace Bucket

def record (b : Bucket) (live : List Nanos) : Op → List Nanos
  | .reserve now terms => (b.reserve now terms).1.held ++ live
  | .giveBack ready => live.erase ready
  | .retune _ => live

def ledger (b : Bucket) (live : List Nanos) : List Op → List Nanos
  | [] => live
  | op :: rest => (b.apply op).ledger (b.record live op) rest

def permits (b : Bucket) : Op → Nat
  | .reserve now terms => (b.reserve now terms).1.permits
  | .giveBack _ | .retune _ => 0

def taken (b : Bucket) : List Op → Nat
  | [] => 0
  | op :: rest => b.permits op + (b.apply op).taken rest

def givenBack : List Op → Nat
  | [] => 0
  | .giveBack _ :: rest => givenBack rest + 1
  | .reserve _ _ :: rest | .retune _ :: rest => givenBack rest

-- A reservation reads a clock that has not run back; a permit given back is one that is out.
def InOrder (b : Bucket) (live : List Nanos) : Op → Prop
  | .reserve now _ => b.refilled ≤ now
  | .giveBack ready => ready ∈ live
  | .retune _ => True

def Orderly (b : Bucket) (live : List Nanos) : List Op → Prop
  | [] => True
  | op :: rest => b.InOrder live op ∧ (b.apply op).Orderly (b.record live op) rest

variable (b : Bucket) {live : List Nanos}

theorem ledger_append (live : List Nanos) (xs ys : List Op) :
    b.ledger live (xs ++ ys) = (b.run xs).ledger (b.ledger live xs) ys := by
  induction xs generalizing b live with
  | nil => rfl
  | cons op rest ih => exact ih (b.apply op) (b.record live op)

theorem taken_append (xs ys : List Op) : b.taken (xs ++ ys) = b.taken xs + (b.run xs).taken ys := by
  induction xs generalizing b with
  | nil => simp [taken]
  | cons op rest ih =>
    have later := ih (b.apply op)
    simp only [List.cons_append,taken,run_cons,later]
    omega

theorem givenBack_append (xs ys : List Op) : givenBack (xs ++ ys) = givenBack xs + givenBack ys := by
  induction xs with
  | nil => simp [givenBack]
  | cons op rest ih =>
    cases op with
    | giveBack ready => simp only [List.cons_append,givenBack,ih]; omega
    | reserve now terms => exact ih
    | retune rate => exact ih

theorem orderly_append (live : List Nanos) (xs ys : List Op) :
    b.Orderly live (xs ++ ys) ↔ b.Orderly live xs ∧ (b.run xs).Orderly (b.ledger live xs) ys := by
  induction xs generalizing b live with
  | nil => simp [Orderly,ledger]
  | cons op rest ih => simp [Orderly,ledger,ih,and_assoc]

theorem record_length (op : Op) (inOrder : b.InOrder live op) :
    b.permits op + live.length = givenBack [op] + (b.record live op).length := by
  cases op with
  | reserve now terms =>
    have one := (b.reserve now terms).1.held_length
    simp only [permits,record,givenBack,List.length_append,Nat.zero_add,one]
  | giveBack ready =>
    have some := List.length_pos_of_mem inOrder
    simp only [permits,record,givenBack,List.length_erase_of_mem inOrder]
    omega
  | retune rate => simp [permits,record,givenBack]

theorem ledger_length (ops : List Op) (orderly : b.Orderly live ops) :
    b.taken ops + live.length = givenBack ops + (b.ledger live ops).length := by
  induction ops generalizing b live with
  | nil => simp [taken,givenBack,ledger]
  | cons op rest ih =>
    obtain ⟨first,later⟩ := orderly
    have one := b.record_length op first
    have others := ih _ later
    have parts := givenBack_append [op] rest
    simp only [List.singleton_append] at parts
    simp only [taken,ledger,parts]
    omega

theorem reserve_refilled (now : Nanos) (terms : Terms) :
    (b.reserve now terms).2.refilled = max b.refilled now := by
  rcases b.reserve_cases now terms with eq | eq | ⟨ready,_,eq⟩ <;> rw [eq] <;> rfl

theorem retune_refilled (rate : Binary64) : (b.retune rate).refilled = b.refilled := by
  unfold retune
  split <;> rfl

-- The only clock that an operation reads.
def Op.At (now : Nanos) : Op → Prop
  | .reserve read _ => read = now
  | .giveBack _ | .retune _ => True

theorem run_refilled (ops : List Op) (read : ∀ op ∈ ops, op.At now) (past : b.refilled ≤ now) :
    (b.run ops).refilled ≤ now := by
  induction ops generalizing b with
  | nil => exact past
  | cons op rest ih =>
    have first : (b.apply op).refilled ≤ now := by
      cases op with
      | reserve clock terms =>
        cases read _ List.mem_cons_self
        rw [apply,reserve_refilled]
        exact Nat.max_le.mpr ⟨past,Nat.le_refl _⟩
      | giveBack ready => exact past
      | retune rate =>
        rw [apply,retune_refilled]
        exact past
    exact ih _ (fun later member => read later (List.mem_cons_of_mem op member)) first

end Bucket

@[simp] def Standing.held : Standing → List Nanos
  | .pending ready => [ready]
  | .unpolled | .past => []

namespace Wait
variable {w : Wait} {now : Nanos} {b : Bucket} {polled : Polled} {live rest : List Nanos}

theorem standing_fresh (fresh : w.booked = none) : w.standing = .unpolled := by
  simp [standing,fresh]

theorem standing_held (held : w.booked = some ready) : w.standing = .pending ready := by
  simp [standing,held]

theorem Polling.read (polling : Polling w now b polled) : ∀ op ∈ polled.ops, op.At now := by
  cases polling <;> simp [Bucket.Op.At]

theorem Polling.ledger (polling : Polling w now b polled) (past : b.refilled ≤ now)
    (out : live.Perm (w.standing.held ++ rest)) :
    b.Orderly live polled.ops ∧ ∃ through, through.length = polled.passed ∧
      (b.ledger live polled.ops).Perm (polled.standing.held ++ (through ++ rest)) := by
  cases polling with
  | overflow fresh booking | refused fresh booking =>
    rw [standing_fresh fresh] at out
    refine ⟨⟨past,trivial⟩,[],rfl,?_⟩
    simpa [Bucket.ledger,Bucket.record,booking,Polled.standing] using out
  | @atOnce after ready fresh booking due =>
    rw [standing_fresh fresh] at out
    refine ⟨⟨past,trivial⟩,[ready],rfl,?_⟩
    simpa [Bucket.ledger,Bucket.record,booking,Polled.standing] using out
  | cancelledAtOnce fresh booking early given =>
    rw [standing_fresh fresh] at out
    refine ⟨⟨past,?_,trivial⟩,[],rfl,?_⟩
    · simp [Bucket.record,booking,Bucket.InOrder]
    · simpa [Bucket.ledger,Bucket.record,booking,Polled.standing] using out
  | begun fresh booking early going =>
    rw [standing_fresh fresh] at out
    refine ⟨⟨past,trivial⟩,[],rfl,?_⟩
    simpa [Bucket.ledger,Bucket.record,booking,Polled.standing,standing] using out
  | @woken ready held due =>
    rw [standing_held held] at out
    exact ⟨trivial,[ready],rfl,out⟩
  | @cancelled ready held early given =>
    rw [standing_held held] at out
    refine ⟨⟨out.mem_iff.mpr List.mem_cons_self,trivial⟩,[],rfl,?_⟩
    simpa [Bucket.ledger,Bucket.record,Polled.standing] using out.erase ready
  | asleep held early going => exact ⟨trivial,[],rfl,out⟩

end Wait
end LoadPacing
