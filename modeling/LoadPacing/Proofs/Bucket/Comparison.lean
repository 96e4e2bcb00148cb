import LoadPacing.Proofs.Binary64.Monotone
import LoadPacing.Proofs.Bucket.Waiting

-- A bucket that is no slower, stores no less and holds no less never makes a caller wait longer.
namespace LoadPacing

theorem Terms.accept_sooner {terms : Terms} {earlier ready : Nanos} (accepted : terms.Accept ready)
    (sooner : earlier ≤ ready) : terms.Accept earlier := by
  cases terms with
  | anyTime => trivial
  | «by» deadline =>
    exact (Int.ofNat_le.mpr sooner).trans accepted

theorem Nanos.after_sooner {now shorter wait ready : Nanos} (told : Nanos.after now wait = some ready)
    (sooner : shorter ≤ wait) : ∃ earlier, Nanos.after now shorter = some earlier ∧ earlier ≤ ready := by
  unfold Nanos.after at told
  split at told
  · rename_i inside
    cases told
    have earlier := Nat.add_le_add_left sooner now
    exact ⟨now + shorter,if_pos (earlier.trans_lt inside),earlier⟩
  · cases told

namespace Bucket

structure Dominates (rich poor : Bucket) : Prop where
  flows : poor.rate.Positive
  finite : rich.rate.IsFinite
  faster : poor.rate ≤ rich.rate
  larger : poor.capacity ≤ rich.capacity
  together : rich.refilled = poor.refilled
  richer : poor.balance ≤ rich.balance

variable {b rich poor : Bucket} {now earlier ready : Nanos}

theorem capacity_number (b : Bucket) : b.capacity ≠ .nan := (Binary64.number_of_le b.one_le_capacity).2

theorem Dominates.refill (dominates : rich.Dominates poor) (now : Nanos) :
    (rich.refill now).Dominates (poor.refill now) := by
  have least := Binary64.toSeconds_nonneg (now - poor.refilled)
  have gained := Binary64.mul_mono least dominates.flows dominates.finite dominates.faster
  have some := Binary64.mul_nonneg least dominates.flows
  refine ⟨dominates.flows,dominates.finite,dominates.faster,dominates.larger,?_,?_⟩
  · show max rich.refilled now = max poor.refilled now
    rw [dominates.together]
  · show min (poor.balance + _) poor.capacity ≤ min (rich.balance + Nanos.toSeconds (now - rich.refilled) * rich.rate) _
    rw [dominates.together]
    exact Binary64.capped_mono dominates.richer some gained dominates.larger

theorem Dominates.take (dominates : rich.Dominates poor) : rich.take.Dominates poor.take := by
  have minus := Binary64.negate_finite Binary64.one_yields.1
  have less := Binary64.add_mono dominates.richer (Binary64.le_number (Binary64.finite_ne_nan minus)) minus minus
  exact ⟨dominates.flows,dominates.finite,dominates.faster,dominates.larger,dominates.together,less⟩

theorem owed_finite (flows : b.rate.Positive) (priced : b.debt.IsFinite) :
    (1 - b.balance).IsFinite ∧ b.balance.IsFinite := by
  obtain ⟨units,onGrid,rate,some⟩ := Binary64.positive_form flows
  obtain ⟨_,_,_,unit⟩ := Binary64.finite_form Binary64.one_yields.1
  unfold debt at priced
  rw [rate] at priced
  have owed : (1 - b.balance).IsFinite := by
    generalize 1 - b.balance = owed at priced ⊢
    cases owed with
    | nan | infinite => cases priced
    | finite => trivial
  refine ⟨owed,?_⟩
  rw [unit] at owed
  generalize b.balance = balance at owed ⊢
  cases balance with
  | nan | infinite => cases owed
  | finite => trivial

theorem Dominates.debt (dominates : rich.Dominates poor) (short : ¬ 1 ≤ rich.balance) (priced : poor.debt.IsFinite) :
    rich.debt.IsFinite ∧ 0 ≤ rich.debt.value ∧ rich.debt.value ≤ poor.debt.value := by
  have one := Binary64.one_yields
  have zero := Binary64.zero_yields
  obtain ⟨owedFinite,finite⟩ := owed_finite dominates.flows priced
  rcases Binary64.above_cases finite dominates.richer with top | ⟨richFinite,richer⟩
  · rw [top] at short
    exact absurd (Binary64.le_infinite (Binary64.finite_ne_nan one.1)) short
  have below := (Binary64.below_one richFinite).mp short
  have poorRate := Binary64.positive_value dominates.flows
  have faster := (Binary64.value_le dominates.flows.1 dominates.finite).mp dominates.faster
  have poorOwed := Binary64.sub_rounds one.1 finite
  have richOwed := Binary64.sub_rounds one.1 richFinite
  rw [one.2] at poorOwed richOwed
  obtain ⟨richOwedFinite,least,owed⟩ :=
    richOwed.between zero.rounds poorOwed zero.1 owedFinite (by linarith) (by linarith)
  rw [zero.2] at least
  have poorDebt := Binary64.div_rounds owedFinite dominates.flows.1 poorRate.ne'
  have richDebt := Binary64.div_rounds richOwedFinite dominates.finite (poorRate.trans_le faster).ne'
  have price : (1 - rich.balance).value / rich.rate.value ≤ (1 - poor.balance).value / poor.rate.value := by
    gcongr
    exact least.trans owed
  have priceLeast : 0 ≤ (1 - rich.balance).value / rich.rate.value := div_nonneg least (poorRate.le.trans faster)
  have debts := richDebt.between zero.rounds poorDebt zero.1 priced priceLeast price
  rwa [zero.2] at debts

theorem Dominates.readyAt (dominates : rich.Dominates poor) (told : poor.readyAt now = some ready) :
    ∃ earlier, rich.readyAt now = some earlier ∧ earlier ≤ ready := by
  by_cases stored : 1 ≤ rich.balance
  · exact ⟨now,if_pos stored,now_le_ready told⟩
  rcases readyAt_cases told with ⟨full,_⟩ | ⟨wait,short,converted,_,_⟩
  · exact absurd (Binary64.le_trans full dominates.richer) stored
  have priced := Nanos.finite_of_seconds converted
  obtain ⟨finite,least,debts⟩ := dominates.debt stored priced
  have shorter : nearestEven (rich.debt.value * 10 ^ 9) ≤ nearestEven (poor.debt.value * 10 ^ 9) :=
    nearestEven_mono (by positivity) (mul_le_mul_of_nonneg_right debts (by positivity))
  rw [readyAt_short short priced (least.trans debts)] at told
  rw [readyAt_short stored finite least]
  exact Nanos.after_sooner told shorter

theorem reserve_sooner {terms : Terms} (refilled : (rich.refill now).Dominates (poor.refill now))
    (booked : (poor.reserve now terms).1 = .booked ready) :
    ∃ earlier, (rich.reserve now terms).1 = .booked earlier ∧ earlier ≤ ready ∧
      (rich.reserve now terms).2.Dominates (poor.reserve now terms).2 := by
  obtain ⟨told,left⟩ := reserve_booking booked
  obtain ⟨earlier,richTold,sooner⟩ := refilled.readyAt told
  rw [reserve_ready richTold (Terms.accept_sooner (reserve_accepted booked) sooner),left]
  exact ⟨earlier,rfl,sooner,refilled.take⟩

theorem dominates_richer (flows : poor.rate.Positive) (rates : rich.rate = poor.rate) (bursts : rich.burst = poor.burst)
    (together : rich.refilled = poor.refilled) (richer : poor.balance ≤ rich.balance) : rich.Dominates poor := by
  have capacities : rich.capacity = poor.capacity := by rw [capacity,rates,bursts,capacity]
  refine ⟨flows,?_,?_,?_,together,richer⟩
  · rw [rates]; exact flows.1
  · rw [rates]; exact Binary64.le_number (Binary64.finite_ne_nan flows.1)
  · rw [capacities]; exact Binary64.le_number poor.capacity_number

-- Storing more than the rate in force allows, as after a rate cut: giving a permit back lowers that at once.
theorem giveBack_dominates (flows : b.rate.Positive) (number : b.balance ≠ .nan) (now : Nanos) :
    (b.giveBack.refill now).Dominates (b.refill now) := by
  have more := Binary64.le_add_number number Binary64.zero_below_one Binary64.one_yields.1
  by_cases stored : b.balance ≤ b.capacity
  · have richer : b.balance ≤ b.giveBack.balance := Binary64.le_min more stored
    have dominates : b.giveBack.Dominates b := dominates_richer flows rfl rfl rfl richer
    exact dominates.refill now
  · have capacity := Binary64.le_number b.capacity_number
    have bounded : b.capacity.IsFinite := by
      rcases Binary64.above_cases Binary64.one_yields.1 b.one_le_capacity with top | ⟨finite,_⟩
      · rw [top] at stored
        exact absurd (Binary64.le_infinite number) stored
      · exact finite
    have above : b.capacity ≤ b.balance := Binary64.le_of_not_le b.capacity_number number stored
    have full : b.capacity ≤ b.giveBack.balance := Binary64.le_min (Binary64.le_trans above more) capacity
    have gained := Binary64.mul_nonneg (Binary64.toSeconds_nonneg (now - b.refilled)) flows
    have refilled : b.capacity ≤ (b.giveBack.refill now).balance :=
      Binary64.le_min (Binary64.le_add bounded full gained) capacity
    exact dominates_richer flows rfl rfl rfl (Binary64.le_trans (Binary64.min_le_right b.capacity_number) refilled)

example : (⟨1,10,99,0⟩ : Bucket).giveBack.balance = 10 ∧ ((⟨1,10,99,0⟩ : Bucket).refill 0).balance = 10 := by
  decide +kernel

end Bucket
end LoadPacing
