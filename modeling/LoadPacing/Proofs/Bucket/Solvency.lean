import LoadPacing.Proofs.Binary64.Rounding
import LoadPacing.Proofs.Bucket.Tickets

-- How deep the debt of a bucket can get, and that the clock can tell when it is repaid.
namespace LoadPacing.Bucket

-- The balance after so many permits on credit, from a balance of one.
def lowest : Nat → Binary64
  | 0 => 1
  | permits + 1 => lowest permits - 1

theorem lowest_yields (permits : Nat) : (lowest permits).Yields (1 - (min permits (2 ^ 53 + 1) : Nat)) := by
  induction permits with
  | zero =>
    rw [Nat.zero_min,Nat.cast_zero,sub_zero]
    exact Binary64.one_yields
  | succ permits ih =>
    have rounds := Binary64.sub_rounds ih.1 Binary64.one_yields.1
    rw [ih.2,Binary64.one_yields.2] at rounds
    by_cases small : permits ≤ 2 ^ 53
    · have debt := Binary64.negate_yields (Binary64.ofNat_yields small)
      rw [Nat.min_eq_left (small.trans (Nat.le_succ _))] at rounds
      rw [Nat.min_eq_left (Nat.succ_le_succ small)]
      have same : (1 : ℚ) - permits - 1 = -permits := by ring
      have next : (1 : ℚ) - (permits + 1 : Nat) = -permits := by push_cast; ring
      rw [same] at rounds
      rw [next]
      exact rounds.exact debt
    · -- One permit more than the largest debt is rounded away.
      have large : 2 ^ 53 + 1 ≤ permits := Nat.not_le.mp small
      rw [Nat.min_eq_right large] at rounds
      rw [Nat.min_eq_right (large.trans (Nat.le_succ _))]
      have deepest : (-Binary64.ofNat (2 ^ 53)).Yields (-(2 ^ 53 : Nat)) :=
        Binary64.negate_yields (Binary64.ofNat_yields (Nat.le_refl _))
      have further := Binary64.sub_rounds deepest.1 Binary64.one_yields.1
      rw [deepest.2,Binary64.one_yields.2] at further
      have same : (1 : ℚ) - (2 ^ 53 + 1 : Nat) - 1 = -(2 ^ 53 : Nat) - 1 := by push_cast; ring
      rw [same] at rounds
      exact rounds.yields further (by decide +kernel)

-- One permit more than so many is rounded away.
theorem lowest_deepest (permits : Nat) : -(2 ^ 53) ≤ (lowest permits).value := by
  have most : ((min permits (2 ^ 53 + 1) : Nat) : ℚ) ≤ 2 ^ 53 + 1 := by exact_mod_cast Nat.min_le_right _ _
  rw [(lowest_yields permits).2]
  linarith

theorem lowest_next (permits : Nat) : lowest (permits + 1) ≤ lowest permits := by
  have next := lowest_yields (permits + 1)
  have last := lowest_yields permits
  have deeper : (min permits (2 ^ 53 + 1) : Nat) ≤ (min (permits + 1) (2 ^ 53 + 1) : Nat) :=
    min_le_min_right _ (Nat.le_succ _)
  have cast : ((min permits (2 ^ 53 + 1) : Nat) : ℚ) ≤ (min (permits + 1) (2 ^ 53 + 1) : Nat) := by
    exact_mod_cast deeper
  rw [Binary64.value_le next.1 last.1,next.2,last.2]
  linarith

theorem lowest_le_one (permits : Nat) : lowest permits ≤ 1 := by
  induction permits with
  | zero => exact (Binary64.value_le Binary64.one_yields.1 Binary64.one_yields.1).mpr le_rfl
  | succ permits ih => exact Binary64.le_trans (lowest_next permits) ih

-- Permits flow in no slower than this, and no more than so many were ever taken on credit.
structure Solvent (low : ℚ) (permits : Nat) (b : Bucket) : Prop where
  flows : b.rate.Positive
  fast : low ≤ b.rate.value
  short : lowest permits ≤ b.balance

variable {low : ℚ} {permits : Nat} {b : Bucket} {now : Nanos}

theorem lowest_le_capped {balance : Binary64} (more : lowest permits ≤ balance) :
    lowest permits ≤ min balance b.capacity :=
  Binary64.le_min more (Binary64.le_trans (lowest_le_one permits) b.one_le_capacity)

theorem solvent_refill (solvent : b.Solvent low permits) (now : Nanos) : (b.refill now).Solvent low permits := by
  have gained := Binary64.mul_nonneg (Binary64.toSeconds_nonneg (now - b.refilled)) solvent.flows
  have sum := Binary64.le_add (lowest_yields permits).1 solvent.short gained
  exact ⟨solvent.flows,solvent.fast,lowest_le_capped sum⟩

theorem solvent_giveBack (solvent : b.Solvent low permits) : b.giveBack.Solvent low permits := by
  have sum := Binary64.le_add (lowest_yields permits).1 solvent.short Binary64.zero_below_one
  exact ⟨solvent.flows,solvent.fast,lowest_le_capped sum⟩

theorem solvent_retune {rate : Binary64} (solvent : b.Solvent low permits) (fast : rate.Positive → low ≤ rate.value) :
    (b.retune rate).Solvent low permits := by
  unfold retune
  split
  · rename_i flows
    exact ⟨flows,fast flows,solvent.short⟩
  · exact solvent

theorem solvent_take (solvent : b.Solvent low permits) : b.take.Solvent low (permits + 1) := by
  have minus := Binary64.negate_finite Binary64.one_yields.1
  have one : (-1 : Binary64) ≤ -1 := Binary64.le_number (Binary64.finite_ne_nan minus)
  have less := Binary64.add_le_add (lowest_yields permits).1 minus solvent.short one
  exact ⟨solvent.flows,solvent.fast,less⟩

theorem solvent_apply {op : Op} (solvent : b.Solvent low permits)
    (fast : ∀ rate, op = .retune rate → rate.Positive → low ≤ rate.value) :
    (b.apply op).Solvent low (permits + b.permits op) := by
  cases op with
  | giveBack ready => exact solvent_giveBack solvent
  | retune rate => exact solvent_retune solvent (fast rate rfl)
  | reserve now terms =>
    have refilled := solvent_refill solvent now
    show (b.reserve now terms).2.Solvent low (permits + (b.reserve now terms).1.permits)
    rcases b.reserve_cases now terms with eq | eq | ⟨ready,_,eq⟩
    · rw [eq]; exact refilled
    · rw [eq]; exact refilled
    · rw [eq]; exact solvent_take refilled

theorem solvent_run (ops : List Op) (solvent : b.Solvent low permits)
    (fast : ∀ rate, .retune rate ∈ ops → rate.Positive → low ≤ rate.value) :
    (b.run ops).Solvent low (permits + b.taken ops) := by
  induction ops generalizing b permits with
  | nil => exact solvent
  | cons op rest ih =>
    have next := solvent_apply solvent fun rate same => fast rate (same ▸ List.mem_cons_self)
    have later := ih next fun rate member => fast rate (List.mem_cons_of_mem op member)
    rwa [Nat.add_assoc] at later

theorem new_solvent {rate burst : Binary64} {start : Nanos} (made : Bucket.new rate burst start = .ok b) : b.Solvent 0 0 := by
  obtain ⟨flows,_,_,rfl⟩ := new_ok made
  exact ⟨flows,(Binary64.positive_value flows).le,lowest_le_one 0⟩

theorem run_solvent {rate burst : Binary64} {start : Nanos} (made : Bucket.new rate burst start = .ok b) (ops : List Op) :
    ∃ permits, (b.run ops).Solvent 0 permits :=
  ⟨_,solvent_run ops (new_solvent made) fun _ _ flows => (Binary64.positive_value flows).le⟩

theorem short_balance (solvent : b.Solvent low permits) (short : ¬ 1 ≤ b.balance) :
    b.balance.IsFinite ∧ (lowest permits).value ≤ b.balance.value := by
  rcases Binary64.above_cases (lowest_yields permits).1 solvent.short with infinite | finite
  · exact absurd (infinite ▸ Binary64.one_yields.rounds.number) short
  · exact finite

theorem readyAt_short (short : ¬ 1 ≤ b.balance) (finite : b.debt.IsFinite) (least : 0 ≤ b.debt.value) :
    b.readyAt now = Nanos.after now (nearestEven (b.debt.value * 10 ^ 9)) := by
  unfold readyAt
  rw [if_neg short]
  exact Nanos.after_seconds finite least now

section Repaid
variable {seconds : Nat} (solvent : b.Solvent low permits) (positive : 0 < low)
  (repaid : (min permits (2 ^ 53) : Nat) ≤ seconds * low) (whole : (Binary64.ofNat seconds).Yields seconds)
include solvent positive repaid whole

theorem debt_bounded (short : ¬ 1 ≤ b.balance) : b.debt.IsFinite ∧ 0 ≤ b.debt.value ∧ b.debt.value ≤ seconds := by
  have zero := Binary64.zero_yields
  have one := Binary64.one_yields
  obtain ⟨finite,above⟩ := short_balance solvent short
  have below := (Binary64.below_one finite).mp short
  rw [(lowest_yields permits).2] at above
  -- What is missing to one permit is rounded once, and so is the quotient.
  have missing := Binary64.sub_rounds one.1 finite
  rw [one.2] at missing
  have most := Binary64.ofNat_saturates permits
  obtain ⟨owedFinite,least,owed⟩ := missing.between zero.rounds (Binary64.ofNat_rounds (min permits (2 ^ 53 + 1)))
    zero.1 most.1 (by linarith) (by linarith)
  rw [zero.2] at least
  rw [most.2] at owed
  have rate : 0 < b.rate.value := positive.trans_le solvent.fast
  have quotient := Binary64.div_rounds owedFinite solvent.flows.1 rate.ne'
  have bound : (1 - b.balance).value / b.rate.value ≤ seconds := by
    rw [div_le_iff₀ rate]
    calc (1 - b.balance).value ≤ (min permits (2 ^ 53) : Nat) := owed
      _ ≤ seconds * low := repaid
      _ ≤ seconds * b.rate.value := mul_le_mul_of_nonneg_left solvent.fast (by positivity)
  have priced := quotient.between zero.rounds whole.rounds zero.1 whole.1 (div_nonneg least rate.le) bound
  rwa [zero.2,whole.2] at priced

theorem readyAt_told (early : now + seconds * Nanos.perSecond < Nanos.horizon) : ∃ ready, b.readyAt now = some ready := by
  by_cases stored : 1 ≤ b.balance
  · exact ⟨now,if_pos stored⟩
  · obtain ⟨finite,least,most⟩ := debt_bounded solvent positive repaid whole stored
    have wait : nearestEven (b.debt.value * 10 ^ 9) ≤ seconds * Nanos.perSecond := by
      have scaled : b.debt.value * 10 ^ 9 ≤ (seconds * Nanos.perSecond : Nat) := by
        have second : ((Nanos.perSecond : Nat) : ℚ) = 10 ^ 9 := by norm_num [Nanos.perSecond]
        push_cast
        rw [second]
        exact mul_le_mul_of_nonneg_right most (by positivity)
      have nearest := nearestEven_mono (by positivity) scaled
      rwa [nearestEven_whole] at nearest
    have inside : now + nearestEven (b.debt.value * 10 ^ 9) < Nanos.horizon :=
      (Nat.add_le_add_left wait now).trans_lt early
    have told : Nanos.after now (nearestEven (b.debt.value * 10 ^ 9)) = some _ := if_pos inside
    exact ⟨_,(readyAt_short stored finite least).trans told⟩

theorem reserve_told (early : now + seconds * Nanos.perSecond < Nanos.horizon) (terms : Terms) :
    (b.reserve now terms).1 ≠ .overflow := by
  obtain ⟨ready,told⟩ := readyAt_told (solvent_refill solvent now) positive repaid whole early
  unfold reserve
  rw [told]
  dsimp only
  split <;> nofun

end Repaid

theorem diary_append (b : Bucket) (xs ys : List Op) : b.diary (xs ++ ys) = b.diary xs ++ (b.run xs).diary ys := by
  induction xs generalizing b with
  | nil => rfl
  | cons op rest ih =>
    cases op with
    | reserve now terms => exact congrArg (_ :: ·) (ih _)
    | giveBack ready => exact ih _
    | retune rate => exact ih _

theorem diary_told (ops : List Op) (solvent : b.Solvent low permits) (positive : 0 < low)
    (fast : ∀ rate, .retune rate ∈ ops → rate.Positive → low ≤ rate.value)
    (repaid : (min (permits + b.taken ops) (2 ^ 53) : Nat) ≤ 2 ^ 62 * low)
    (early : ∀ entry ∈ b.diary ops, entry.1 < 2 ^ 62 * Nanos.perSecond) :
    ∀ entry ∈ b.diary ops, entry.2 ≠ .overflow := by
  induction ops generalizing b permits with
  | nil => nofun
  | cons op rest ih =>
    have next := solvent_apply solvent fun rate same => fast rate (same ▸ List.mem_cons_self)
    have rates : ∀ rate, .retune rate ∈ rest → rate.Positive → low ≤ rate.value :=
      fun rate member => fast rate (List.mem_cons_of_mem op member)
    have later := ih next rates (by rwa [Nat.add_assoc])
    cases op with
    | giveBack ready => exact later early
    | retune rate => exact later early
    | reserve now terms =>
      obtain ⟨first,others⟩ := List.forall_mem_cons.mp early
      have so : ((min permits (2 ^ 53) : Nat) : ℚ) ≤ (2 ^ 62 : Nat) * low := by
        have fewer : min permits (2 ^ 53) ≤ min (permits + b.taken (.reserve now terms :: rest)) (2 ^ 53) :=
          min_le_min_right _ (Nat.le_add_right _ _)
        have cast : ((min permits (2 ^ 53) : Nat) : ℚ) ≤
            (min (permits + b.taken (.reserve now terms :: rest)) (2 ^ 53) : Nat) := by
          exact_mod_cast fewer
        rw [Nat.cast_pow,Nat.cast_ofNat]
        exact cast.trans repaid
      have half : (Binary64.ofNat (2 ^ 62)).Yields (2 ^ 62 : Nat) := by decide +kernel
      have inside : now + 2 ^ 62 * Nanos.perSecond < Nanos.horizon := by
        have halves : 2 ^ 62 * Nanos.perSecond + 2 ^ 62 * Nanos.perSecond = Nanos.horizon := by decide
        exact (Nat.add_lt_add_right first _).trans_eq halves
      exact List.forall_mem_cons.mpr ⟨reserve_told solvent positive so half inside terms,later others⟩

end LoadPacing.Bucket
