import LoadPacing.Proofs.Bucket.Comparison
import LoadPacing.Proofs.Session.FirstPolls
import LoadPacing.Proofs.Session.Waits

namespace LoadPacing.Session
variable {s : Session α} {id : Nat} {due : Nanos}

-- An attempt that cannot name its instant counts as one that is never ready.
theorem dropped_wait_delays_none (fresh : s.Fresh) (actions : List (Action α))
    (pending : (s.run actions).2.standing id = some (.pending due)) :
    let found := (s.run actions).2
    let dropped := (found.step (.drop id)).2.1
    (∀ now terms ready, (found.regulator.bucket.reserve now terms).1 = .booked ready →
      ∃ earlier ≤ ready, (dropped.regulator.bucket.reserve now terms).1 = .booked earlier) ∧
    ∀ rich poor : Bucket, poor.rate.Positive → rich.rate = poor.rate → rich.burst = poor.burst →
      rich.refilled = poor.refilled → poor.balance ≤ rich.balance →
      ∀ now terms ready, (poor.reserve now terms).1 = .booked ready →
        ∃ earlier ≤ ready, (rich.reserve now terms).1 = .booked earlier := by
  intro found dropped
  constructor
  · intro now terms ready booked
    obtain ⟨permits,solvent⟩ := run_solvent fresh actions
    have number : found.regulator.bucket.balance ≠ .nan := (Binary64.number_of_le solvent.short).2
    have back : dropped.regulator.bucket = found.regulator.bucket.giveBack := (drop_pending pending).bucket
    rw [back]
    obtain ⟨earlier,told,sooner,_⟩ :=
      Bucket.reserve_sooner (Bucket.giveBack_dominates solvent.flows number now) booked
    exact ⟨earlier,sooner,told⟩
  · intro rich poor flows rates bursts together richer now terms ready booked
    have dominates := Bucket.dominates_richer flows rates bursts together richer
    obtain ⟨earlier,told,sooner,_⟩ := Bucket.reserve_sooner (dominates.refill now) booked
    exact ⟨earlier,sooner,told⟩

-- Two wait when the rate falls to one permit a second; the first one is dropped.
theorem dropped_wait_delays_none_slower_rate :
    let opened : Session Unit := ⟨0,⟨2,2,2,none,⟨2,0,1,0⟩⟩,.of .default,[],[],0,0⟩
    let found := (opened.run [.tryAcquire,.acquire 0 false,.acquire 1 false,.setRate 1]).2
    let dropped := (found.step (.drop 0)).2.1
    (found.regulator.bucket.reserve 100000000 .anyTime).1 = .booked 3000000000 ∧
    (dropped.regulator.bucket.reserve 100000000 .anyTime).1 = .booked 2000000000 ∧
    ∃ earlier ≤ 3000000000, (dropped.regulator.bucket.reserve 100000000 .anyTime).1 = .booked earlier := by
  intro opened found dropped
  have fresh : opened.Fresh := ⟨rfl,2,0,Bucket.new_usable (by decide +kernel) (by decide +kernel)⟩
  have pending : found.standing 0 = some (.pending 500000000) := by decide +kernel
  have booked : (found.regulator.bucket.reserve 100000000 .anyTime).1 = .booked 3000000000 := by decide +kernel
  have delays := dropped_wait_delays_none fresh _ pending
  exact ⟨booked,by decide +kernel,delays.1 100000000 .anyTime 3000000000 booked⟩

end LoadPacing.Session
