import LoadPacing.Proofs.Bucket.Abandoning
import LoadPacing.Proofs.Bucket.Comparison

-- What a new rate does to the permits that are there. A refill is put off until the next attempt.
namespace LoadPacing

namespace Bucket
variable {b rich poor : Bucket} {rate : Binary64} {now ready : Nanos}

theorem capacity_mono (stores : 0 ≤ b.burst) (flows : rate.Positive) (finite : b.rate.IsFinite) (slower : rate ≤ b.rate) :
    ({ b with rate } : Bucket).capacity ≤ b.capacity := by
  have product := Binary64.mul_mono stores flows finite slower
  have number := (Binary64.number_of_le product).2
  have one := Binary64.finite_ne_nan Binary64.one_yields.1
  exact Binary64.max_le (Binary64.le_trans product (Binary64.le_max_left number one)) b.one_le_capacity

theorem retune_dominated (flows : b.rate.Positive) (stores : 0 ≤ b.burst) (number : b.balance ≠ .nan)
    (slower : rate ≤ b.rate) : b.Dominates (b.retune rate) := by
  unfold retune
  split
  · rename_i valid
    exact ⟨valid,flows.1,slower,capacity_mono stores valid flows.1 slower,rfl,Binary64.le_number number⟩
  · exact dominates_richer flows rfl rfl rfl (Binary64.le_number number)

-- So many attempts on the spot in a row are granted.
def Serves (now : Nanos) : Bucket → Nat → Prop
  | _, 0 => True
  | b, permits + 1 => (∃ ready, (b.reserve now (.by now)).1 = .booked ready) ∧
      (b.reserve now (.by now)).2.Serves now permits

theorem Dominates.serves (dominates : rich.Dominates poor) {permits : Nat} (serves : poor.Serves now permits) :
    rich.Serves now permits := by
  induction permits generalizing rich poor with
  | zero => trivial
  | succ permits ih =>
    obtain ⟨⟨ready,booked⟩,rest⟩ := serves
    obtain ⟨earlier,told,_,after⟩ := reserve_sooner (dominates.refill now) booked
    exact ⟨⟨earlier,told⟩,ih after rest⟩

-- No idle time is left to credit, and a nanosecond at the new rate does not bring the next whole permit.
structure Credited (now : Nanos) (rate : Binary64) (b : Bucket) : Prop where
  clock : b.refilled = now
  stored : b.balance ≤ b.capacity
  slow : rate.value ≤ 10 ^ 9 * (1 - Int.fract b.balance.value)

theorem wait_lacking (flows : b.rate.Positive) (finite : b.balance.IsFinite) (below : b.balance.value < 1)
    (lacks : b.rate.value / 10 ^ 9 ≤ 1 - b.balance.value) : Nanos.ofSeconds b.debt ≠ .ok 0 := by
  intro converted
  have tiny := Binary64.halfUnit_small
  have positive := Binary64.positive_value flows
  have least := Binary64.one_sub_least finite below
  -- What is lacking to one permit is rounded, and so is its price.
  have missing := Binary64.sub_rounds Binary64.one_yields.1 finite
  rw [Binary64.one_yields.2] at missing
  have owedFinite := (owed_finite flows (Nanos.finite_of_seconds converted)).1
  have near := missing.near owedFinite
  have some : 0 ≤ 1 - b.balance.value := by linarith
  rw [abs_of_nonneg some,abs_le] at near
  have owed : 3 / 2 ^ 32 * b.rate.value ≤ (1 - b.balance).value := by linarith
  have price : 3 / 2 ^ 32 ≤ (1 - b.balance).value / b.rate.value := by rwa [le_div_iff₀ positive]
  have quotient := Binary64.div_rounds owedFinite flows.1 positive.ne'
  have bound : (Binary64.ofNat 3 / Binary64.ofNat (2 ^ 32)).Yields (3 / 2 ^ 32) := by decide +kernel
  have debt := (Binary64.value_le bound.1 (Nanos.finite_of_seconds converted)).mp (bound.rounds.le quotient price)
  rw [bound.2] at debt
  have half := (Nanos.ofSeconds_near (Nanos.finite_of_seconds converted) (by linarith) converted).1
  push_cast at half
  linarith

theorem late_of_lacking (flows : b.rate.Positive) (short : ¬ 1 ≤ b.balance)
    (lacks : b.balance.IsFinite → b.rate.value / 10 ^ 9 ≤ 1 - b.balance.value) (told : b.readyAt now = some ready) :
    now < ready := by
  rcases readyAt_cases told with ⟨full,_⟩ | ⟨wait,_,converted,_,rfl⟩
  · exact absurd full short
  · have finite := (owed_finite flows (Nanos.finite_of_seconds converted)).2
    have some : wait ≠ 0 := by
      rintro rfl
      exact wait_lacking flows finite ((Binary64.below_one finite).mp short) (lacks finite) converted
    exact Nat.lt_add_of_pos_right (Nat.pos_of_ne_zero some)

theorem late_of_slow (flows : b.rate.Positive) (slow : b.rate.value ≤ 10 ^ 9 * (1 - Int.fract b.balance.value))
    (short : ¬ 1 ≤ b.balance) (told : b.readyAt now = some ready) : now < ready := by
  refine late_of_lacking flows short (fun finite => ?_) told
  have below := (Binary64.below_one finite).mp short
  have floor : ⌊b.balance.value⌋ ≤ 0 := Int.lt_add_one_iff.mp (Int.floor_lt.mpr (by simpa using below))
  have cast : ((⌊b.balance.value⌋ : Int) : ℚ) ≤ 0 := by exact_mod_cast floor
  have parts := Int.self_sub_floor b.balance.value
  rw [div_le_iff₀ (by norm_num)]
  linarith

theorem Credited.refill (credited : b.Credited now rate) (flows : b.rate.Positive) : (b.refill now).Credited now rate := by
  obtain ⟨same,most⟩ := Binary64.add_zero_same b.balance
  have lower := most (Binary64.number_of_le credited.stored).1
  rw [refill_still flows credited.clock credited.stored]
  refine ⟨credited.clock,Binary64.le_trans lower credited.stored,?_⟩
  rw [same]
  exact credited.slow

theorem Credited.take (credited : b.Credited now rate) (full : 1 ≤ b.balance) : b.take.Credited now rate := by
  have lower := Binary64.sub_one_le (Binary64.number_of_le full).2
  refine ⟨credited.clock,Binary64.le_trans lower credited.stored,?_⟩
  have slow := credited.slow
  show rate.value ≤ 10 ^ 9 * (1 - Int.fract (b.balance - 1).value)
  rcases Binary64.above_cases Binary64.one_yields.1 full with top | ⟨finite,least⟩
  · have still : (Binary64.infinite false - 1).value = (Binary64.infinite false).value := by decide +kernel
    rw [top] at slow ⊢
    rwa [still]
  · rw [Binary64.one_yields.2] at least
    rwa [(Binary64.fract_taken finite least).2]

-- Two buckets that hold the same, with no idle time left to credit.
structure Level (now : Nanos) (rich poor : Bucket) : Prop where
  richFlows : rich.rate.Positive
  poorFlows : poor.rate.Positive
  richClock : rich.refilled = now
  richStored : rich.balance ≤ rich.capacity
  credited : poor.Credited now poor.rate
  same : rich.balance = poor.balance

theorem Level.refill (level : Level now rich poor) : Level now (rich.refill now) (poor.refill now) := by
  have credited := level.credited.refill level.poorFlows
  have lower := Binary64.add_zero_le (Binary64.number_of_le level.richStored).1
  rw [refill_still level.richFlows level.richClock level.richStored]
  rw [refill_still level.poorFlows level.credited.clock level.credited.stored] at credited ⊢
  exact ⟨level.richFlows,level.poorFlows,level.richClock,Binary64.le_trans lower level.richStored,credited,
    congrArg (· + 0) level.same⟩

theorem Level.take (level : Level now rich poor) (full : 1 ≤ poor.balance) : Level now rich.take poor.take := by
  have lower := Binary64.sub_one_le (Binary64.number_of_le level.richStored).1
  exact ⟨level.richFlows,level.poorFlows,level.richClock,Binary64.le_trans lower level.richStored,
    level.credited.take full,congrArg (· - 1) level.same⟩

theorem Level.serves (level : Level now rich poor) {permits : Nat} (serves : poor.Serves now permits) :
    rich.Serves now permits := by
  induction permits generalizing rich poor with
  | zero => trivial
  | succ permits ih =>
    obtain ⟨⟨ready,booked⟩,rest⟩ := serves
    have refilled := level.refill
    have accepted : ready ≤ now := Int.ofNat_le.mp (reserve_accepted booked)
    obtain ⟨told,left⟩ := reserve_booking booked
    rw [left] at rest
    by_cases full : 1 ≤ (poor.refill now).balance
    · have there : (rich.refill now).readyAt now = some now := if_pos (refilled.same ▸ full)
      have granted : rich.reserve now (.by now) = _ := reserve_ready there (Int.le_refl _)
      unfold Serves
      rw [granted]
      exact ⟨⟨now,rfl⟩,ih (refilled.take full) rest⟩
    · exact absurd accepted (Nat.not_le.mpr (late_of_slow refilled.poorFlows refilled.credited.slow full told))

-- At no higher a rate, or with no idle time left to credit, no more permits are there than before.
theorem retune_prospective (flows : b.rate.Positive) (stores : 0 ≤ b.burst) (number : b.balance ≠ .nan)
    (spent : rate ≤ b.rate ∨ b.Credited now rate) :
    (∀ permits, (b.retune rate).Serves now permits → b.Serves now permits) ∧
      ((b.retune rate).refill now).balance ≤ (b.refill now).balance := by
  by_cases slower : rate ≤ b.rate
  · have dominates := retune_dominated flows stores number slower
    exact ⟨fun _ => dominates.serves,(dominates.refill now).richer⟩
  by_cases valid : rate.Positive
  · have credited := spent.resolve_left slower
    have faster := Binary64.le_of_not_le (Binary64.finite_ne_nan flows.1) (Binary64.finite_ne_nan valid.1) slower
    have larger : b.capacity ≤ ({ b with rate } : Bucket).capacity := capacity_mono (b := { b with rate }) stores flows valid.1 faster
    have level : Level now b { b with rate } :=
      ⟨flows,valid,credited.clock,credited.stored,
        ⟨credited.clock,Binary64.le_trans credited.stored larger,credited.slow⟩,rfl⟩
    have same : b.retune rate = { b with rate } := if_pos valid
    rw [same,← level.refill.same]
    exact ⟨fun _ => level.serves,Binary64.le_number (Binary64.number_of_le level.refill.richStored).1⟩
  · have same : b.retune rate = b := if_neg valid
    have dominates := dominates_richer flows rfl rfl rfl (Binary64.le_number number)
    rw [same]
    exact ⟨fun _ => id,(dominates.refill now).richer⟩

end Bucket
end LoadPacing
