import LoadPacing.Proofs.Binary64.Complement
import LoadPacing.Proofs.Binary64.Monotone
import LoadPacing.Proofs.Bucket.Waiting

-- A permit booked on credit and given back at once: the debt of the next booking is the same to the last bit.
namespace LoadPacing.Bucket
variable {b : Bucket} {now ready : Nanos} {permits : Nat}

theorem le_capacity {balance : Binary64} (finite : balance.IsFinite) (most : balance.value ≤ 1) (b : Bucket) :
    balance ≤ b.capacity := by
  have one := Binary64.one_yields
  rw [← one.2] at most
  exact Binary64.le_trans ((Binary64.value_le finite one.1).mpr most) b.one_le_capacity

theorem refill_still (flows : b.rate.Positive) (clock : b.refilled = now) (stored : b.balance ≤ b.capacity) :
    b.refill now = { b with balance := b.balance + 0 } := by
  have seconds := Binary64.toSeconds_zero
  have most := Binary64.le_trans (Binary64.add_zero_le (Binary64.number_of_le stored).1) stored
  have balance : min (b.balance + Nanos.toSeconds (now - b.refilled) * b.rate) b.capacity = b.balance + 0 := by
    rw [clock,Nat.sub_self,seconds,Binary64.zero_mul flows]
    exact Binary64.min_of_le most
  have refilled : max b.refilled now = b.refilled := Nat.max_eq_left clock.ge
  unfold refill
  rw [balance,refilled]

theorem take_giveBack (finite : b.balance.restored.IsFinite) (below : b.balance.restored.value < 1) :
    b.take.giveBack = { b with balance := b.balance.restored } := by
  have stored : b.balance.restored ≤ b.capacity := le_capacity finite below.le b
  have balance : min (b.balance - 1 + 1) b.capacity = b.balance.restored := Binary64.min_of_le stored
  show ({ b with balance := min (b.balance - 1 + 1) b.capacity } : Bucket) = _
  rw [balance]

-- The instant of a permit on credit depends on what is missing to one permit alone.
theorem readyAt_lacking {balance : Binary64} (short : ¬ 1 ≤ b.balance) (still : ¬ 1 ≤ balance)
    (same : 1 - balance = 1 - b.balance) (now : Nanos) : { b with balance }.readyAt now = b.readyAt now := by
  have debt : { b with balance }.debt = b.debt := by
    show (1 - balance) / b.rate = (1 - b.balance) / b.rate
    rw [same]
  unfold readyAt
  rw [if_neg short,if_neg still,debt]

theorem reserve_told_alike {one two : Bucket} (same : (one.refill now).readyAt now = (two.refill now).readyAt now)
    (terms : Terms) : (one.reserve now terms).1 = (two.reserve now terms).1 := by
  unfold reserve
  rw [same]
  split
  · rfl
  · split <;> rfl

-- After a permit on credit was given back at this instant: the same again leaves the bucket as it is.
structure Settled (now : Nanos) (b : Bucket) : Prop where
  flows : b.rate.Positive
  clock : b.refilled = now
  restored : b.balance.Restored

theorem Settled.refill (settled : b.Settled now) : b.refill now = b := by
  have stored := le_capacity settled.restored.finite settled.restored.below.le b
  rw [refill_still settled.flows settled.clock stored,settled.restored.plain]

theorem Settled.abandon (settled : b.Settled now) (booked : (b.reserve now .anyTime).1 = .booked ready) :
    (b.reserve now .anyTime).2.giveBack = b := by
  obtain ⟨finite,below,same,_⟩ := settled.restored
  obtain ⟨_,left⟩ := reserve_booking booked
  rw [left,settled.refill,take_giveBack (by rwa [same]) (by rwa [same]),same]

-- The first round may cost the balance its last bits, and changes the instant of no booking.
theorem abandon_settles (solvent : b.Solvent 0 permits) (past : b.refilled ≤ now)
    (booked : (b.reserve now .anyTime).1 = .booked ready) (waits : now < ready) :
    (b.reserve now .anyTime).2.giveBack.Settled now ∧
      ∀ terms, ((b.reserve now .anyTime).2.giveBack.reserve now terms).1 = (b.reserve now terms).1 := by
  obtain ⟨told,left⟩ := reserve_booking booked
  have clock : (b.refill now).refilled = now := Nat.max_eq_right past
  have flows : (b.refill now).rate.Positive := solvent.flows
  have short : ¬ 1 ≤ (b.refill now).balance := by
    rcases readyAt_cases told with ⟨_,same⟩ | ⟨_,short,_⟩
    · exact absurd same waits.ne'
    · exact short
  obtain ⟨finite,above⟩ := short_balance (solvent_refill solvent now) short
  obtain ⟨restored,lacks⟩ :=
    Binary64.restored_lacks finite ((Binary64.below_one finite).mp short) ((lowest_deepest permits).trans above)
  have same := take_giveBack restored.finite restored.below
  have still := (Binary64.below_one restored.finite).mpr restored.below
  rw [left,same]
  have settled : Settled now { b.refill now with balance := (b.refill now).balance.restored } := ⟨flows,clock,restored⟩
  refine ⟨settled,reserve_told_alike ?_⟩
  rw [settled.refill]
  exact readyAt_lacking short still lacks now

end LoadPacing.Bucket
