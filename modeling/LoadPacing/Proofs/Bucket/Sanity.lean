import LoadPacing.Proofs.Bucket.Comparison

-- The balance stays a number that permits can be added to, whatever rates and clocks a run is given.
namespace LoadPacing.Bucket

structure Sane (b : Bucket) : Prop where
  flows : b.rate.Positive
  number : b.balance ≠ .nan
  bounded : b.balance ≠ .infinite true

variable {low : ℚ} {permits : Nat} {b : Bucket} {rate burst : Binary64} {start : Nanos}

theorem Solvent.sane (solvent : b.Solvent low permits) : b.Sane := by
  refine ⟨solvent.flows,(Binary64.number_of_le solvent.short).2,?_⟩
  intro bottomless
  rcases Binary64.above_cases (lowest_yields permits).1 solvent.short with infinite | ⟨finite,_⟩
  · rw [bottomless] at infinite
    cases infinite
  · rw [bottomless] at finite
    exact finite

theorem refill_capped (b : Bucket) (now : Nanos) : (b.refill now).balance ≤ b.capacity :=
  Binary64.min_le_right b.capacity_number

theorem giveBack_capped (b : Bucket) : b.giveBack.balance ≤ b.capacity := Binary64.min_le_right b.capacity_number

theorem apply_refilled (b : Bucket) (op : Op) : b.refilled ≤ (b.apply op).refilled := by
  cases op with
  | reserve now terms =>
    rw [apply,reserve_refilled]
    exact Nat.le_max_left _ _
  | giveBack ready => exact Nat.le_refl _
  | retune rate =>
    rw [apply,retune_refilled]

theorem refilled_run (b : Bucket) (ops : List Op) : b.refilled ≤ (b.run ops).refilled := by
  induction ops generalizing b with
  | nil => exact Nat.le_refl _
  | cons op rest ih => exact (b.apply_refilled op).trans (ih (b.apply op))

-- What an operation does to a bucket of this burst.
inductive Does (burst : Binary64) (b : Bucket) : Op → Bucket → Prop where
  | reserve {now : Nanos} {terms : Terms} {after : Bucket} (sane : (b.refill now).Sane)
      (capped : (b.refill now).balance ≤ max (burst * b.rate) 1)
      (clock : (b.refill now).refilled = max b.refilled now)
      (left : after = b.refill now ∨ after = (b.refill now).take) : Does burst b (.reserve now terms) after
  | giveBack {ready : Nanos} {after : Bucket} (capped : after.balance ≤ max (burst * after.rate) 1)
      (clock : after.refilled = b.refilled) : Does burst b (.giveBack ready) after
  | retune {rate : Binary64} {after : Bucket} (valid : after.rate = if rate.Positive then rate else b.rate)
      (kept : after.balance = b.balance) (clock : after.refilled = b.refilled) : Does burst b (.retune rate) after

theorem apply_does (solvent : b.Solvent low permits) (op : Op) : b.Does b.burst op (b.apply op) := by
  cases op with
  | reserve now terms =>
    refine .reserve (solvent_refill solvent now).sane (b.refill_capped now) rfl ?_
    show (b.reserve now terms).2 = _ ∨ (b.reserve now terms).2 = _
    rcases b.reserve_cases now terms with eq | eq | ⟨ready,_,eq⟩
    · exact .inl (by rw [eq])
    · exact .inl (by rw [eq])
    · exact .inr (by rw [eq])
  | giveBack ready => exact .giveBack b.giveBack_capped rfl
  | retune rate =>
    have same : b.apply (.retune rate) = if rate.Positive then { b with rate } else b := rfl
    rw [same]
    split
    · rename_i valid
      exact .retune (if_pos valid).symm rfl rfl
    · rename_i invalid
      exact .retune (if_neg invalid).symm rfl rfl

-- Products may overflow, clocks run back and rates change: no run leaves a balance that is not sane.
theorem sane_throughout (made : Bucket.new rate burst start = .ok b) (before : List Op) :
    let found := b.run before
    found.Sane ∧ (∀ after, found.refilled ≤ (b.run (before ++ after)).refilled) ∧
      ∀ op, (found.apply op).Sane ∧ found.Does burst op (found.apply op) := by
  intro found
  obtain ⟨permits,solvent⟩ := run_solvent made before
  have stored : found.burst = burst := by
    obtain ⟨_,_,_,same⟩ := new_ok made
    rw [run_burst,same]
  refine ⟨solvent.sane,?_,?_⟩
  · intro after
    rw [run_append]
    exact refilled_run _ after
  · intro op
    have fast : ∀ rate, op = .retune rate → rate.Positive → 0 ≤ rate.value :=
      fun _ _ flows => (Binary64.positive_value flows).le
    have next := solvent_apply solvent fast
    have does := apply_does solvent op
    rw [stored] at does
    exact ⟨next.sane,does⟩

-- Both products overflow, a clock is read late and the rate falls to the least one.
theorem sane_throughout_flooded :
    let huge := Binary64.ofBits 0x7fefffffffffffff
    let made : Bucket := ⟨huge,huge,1,7⟩
    let before : List Bucket.Op :=
      [.reserve 2000000007 (.by 2000000007),.retune .nan,.reserve 5 .anyTime,.retune (.ofBits 1)]
    let found := made.run before
    Bucket.new huge huge 7 = .ok made ∧ found = ⟨.ofBits 1,huge,.infinite false,2000000007⟩ ∧
      found.Sane ∧ found.giveBack.balance ≤ max (huge * found.rate) 1 := by
  intro huge made before found
  have opened : Bucket.new huge huge 7 = .ok made := new_usable (by decide +kernel) (by decide +kernel)
  obtain ⟨sane,_,does⟩ := sane_throughout opened before
  refine ⟨opened,by decide +kernel,sane,?_⟩
  cases (does (.giveBack 0)).2 with
  | giveBack capped => exact capped

end LoadPacing.Bucket
