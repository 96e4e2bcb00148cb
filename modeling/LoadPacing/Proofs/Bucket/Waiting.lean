import LoadPacing.Proofs.Binary64.Error
import LoadPacing.Proofs.Bucket.Solvency

-- A wait that was booked later is due no earlier, as long as the rate in force has not risen.
namespace LoadPacing.Bucket

variable {b : Bucket} {now due ready wait : Nanos} {rate spare : ℚ} {debt permits : Nat} {live : List Nanos}

-- The most that rounding at one booking is worth, in permits, while so many are owed.
def roundoff (debt : Nat) : ℚ := (debt + 2) / 2 ^ 49

theorem roundoff_nonneg (debt : Nat) : 0 ≤ roundoff debt := by
  unfold roundoff
  positivity

-- At this rate the balance is not back at one permit before the instant, with so much to spare.
structure Behind (rate spare : ℚ) (due : Nanos) (b : Bucket) : Prop where
  inside : due < Nanos.horizon
  finite : b.balance.IsFinite
  owed : ((due : ℚ) - 1 / 2 - b.refilled) / 10 ^ 9 * rate + spare ≤ 1 - b.balance.value

theorem owes_most (solvent : b.Solvent 0 permits) (finite : b.balance.IsFinite) (most : permits ≤ debt) :
    1 - b.balance.value ≤ debt := by
  obtain ⟨lowFinite,lowValue⟩ := lowest_yields permits
  have above := (Binary64.value_le lowFinite finite).mp solvent.short
  have fewer : min permits (2 ^ 53 + 1) ≤ debt := (Nat.min_le_left _ _).trans most
  have cast : ((min permits (2 ^ 53 + 1) : Nat) : ℚ) ≤ debt := by exact_mod_cast fewer
  rw [lowValue] at above
  linarith

theorem solvent_owes (solvent : b.Solvent 0 permits) (owes : 1 - b.balance.value ≤ debt) (few : debt ≤ 2 ^ 53) :
    b.Solvent 0 debt := by
  obtain ⟨lowFinite,lowValue⟩ := lowest_yields debt
  refine ⟨solvent.flows,solvent.fast,?_⟩
  rcases Binary64.above_cases (lowest_yields permits).1 solvent.short with infinite | ⟨finite,_⟩
  · rw [infinite]
    exact (Binary64.finite_rounds lowFinite).number
  · rw [Binary64.value_le lowFinite finite,lowValue,Nat.min_eq_left (few.trans (Nat.le_succ _))]
    linarith

theorem debt_priced (flows : b.rate.Positive) (finite : b.balance.IsFinite) (short : b.balance.value ≤ 1)
    (owes : 1 - b.balance.value ≤ debt) (few : (debt : ℚ) ≤ 2 ^ 49) (priced : b.debt.IsFinite) :
    0 ≤ b.debt.value ∧ |b.debt.value * b.rate.value - (1 - b.balance.value)| ≤ (debt + 2) / 2 ^ 50 := by
  have tiny := Binary64.halfUnit_small
  have scaled := Binary64.halfUnit_scaled flows.1
  have positive := Binary64.positive_value flows
  -- What is missing to one permit, and further down its price.
  have missing := Binary64.sub_rounds Binary64.one_yields.1 finite
  rw [Binary64.one_yields.2] at missing
  have some : 0 ≤ 1 - b.balance.value := by linarith
  obtain ⟨missingFinite,missingNear⟩ := missing.within (by rw [abs_of_nonneg some]; linarith)
  have least := missing.nonneg missingFinite some
  rw [abs_of_nonneg some] at missingNear
  have quotient := Binary64.div_rounds missingFinite flows.1 positive.ne'
  have price : 0 ≤ (1 - b.balance).value / b.rate.value := div_nonneg least positive.le
  have priceNear := quotient.near priced
  rw [abs_of_nonneg price] at priceNear
  have repaid : |b.debt.value * b.rate.value - (1 - b.balance).value| ≤
      (1 - b.balance).value / 2 ^ 53 + Binary64.halfUnit * b.rate.value := by
    have parts : b.debt.value * b.rate.value - (1 - b.balance).value =
        (b.debt.value - (1 - b.balance).value / b.rate.value) * b.rate.value := by
      field_simp
    rw [parts,abs_mul,abs_of_pos positive]
    calc |b.debt.value - (1 - b.balance).value / b.rate.value| * b.rate.value
        ≤ ((1 - b.balance).value / b.rate.value / 2 ^ 53 + Binary64.halfUnit) * b.rate.value :=
          mul_le_mul_of_nonneg_right priceNear positive.le
      _ = (1 - b.balance).value / 2 ^ 53 + Binary64.halfUnit * b.rate.value := by field_simp
  rw [abs_le] at missingNear repaid
  exact ⟨quotient.nonneg priced price,abs_le.mpr ⟨by linarith,by linarith⟩⟩

-- A wait that is rounded to a nanosecond repays what is missing, but for the other roundings.
theorem wait_priced (flows : b.rate.Positive) (finite : b.balance.IsFinite) (short : b.balance.value ≤ 1)
    (owes : 1 - b.balance.value ≤ debt) (few : (debt : ℚ) ≤ 2 ^ 49) (converted : Nanos.ofSeconds b.debt = .ok wait) :
    ((wait : ℚ) - 1 / 2) / 10 ^ 9 * b.rate.value ≤ 1 - b.balance.value + (debt + 2) / 2 ^ 50 ∧
    1 - b.balance.value ≤ ((wait : ℚ) + 1 / 2) / 10 ^ 9 * b.rate.value + (debt + 2) / 2 ^ 50 := by
  have priced := Nanos.finite_of_seconds converted
  obtain ⟨least,near⟩ := debt_priced flows finite short owes few priced
  obtain ⟨low,high⟩ := Nanos.ofSeconds_near priced least converted
  have positive := Binary64.positive_value flows
  have early : ((wait : ℚ) - 1 / 2) / 10 ^ 9 ≤ b.debt.value := by linarith
  have late : b.debt.value ≤ ((wait : ℚ) + 1 / 2) / 10 ^ 9 := by linarith
  have less := mul_le_mul_of_nonneg_right early positive.le
  have more := mul_le_mul_of_nonneg_right late positive.le
  rw [abs_le] at near
  exact ⟨by linarith,by linarith⟩

theorem gained_most {d : Nanos} (flows : b.rate.Positive) (inside : d < Nanos.horizon)
    (brings : (d : ℚ) / 10 ^ 9 * b.rate.value ≤ debt) (few : (debt : ℚ) ≤ 2 ^ 49) :
    (Nanos.toSeconds d * b.rate).IsFinite ∧ 0 ≤ (Nanos.toSeconds d * b.rate).value ∧
      (Nanos.toSeconds d * b.rate).value ≤ (d : ℚ) / 10 ^ 9 * b.rate.value + (debt + 3) / 2 ^ 50 := by
  have tiny := Binary64.halfUnit_small
  have scaled := Binary64.halfUnit_scaled flows.1
  have positive := Binary64.positive_value flows
  obtain ⟨finite,most⟩ := Binary64.toSeconds_near inside
  have least := Binary64.nonneg_value finite (Binary64.toSeconds_nonneg d)
  have exactLeast : 0 ≤ (Nanos.toSeconds d).value * b.rate.value := mul_nonneg least positive.le
  have exactMost : (Nanos.toSeconds d).value * b.rate.value ≤
      (d : ℚ) / 10 ^ 9 * b.rate.value * (1 + 1 / 2 ^ 51) + 4 * (Binary64.halfUnit * b.rate.value) := by
    have product := mul_le_mul_of_nonneg_right most positive.le
    linarith
  have rounds := Binary64.mul_rounds finite flows.1
  obtain ⟨gainedFinite,near⟩ := rounds.within (by rw [abs_of_nonneg exactLeast]; linarith)
  rw [abs_of_nonneg exactLeast,abs_le] at near
  exact ⟨gainedFinite,rounds.nonneg gainedFinite exactLeast,by linarith⟩

theorem brings_nonneg (late : now < due) (top : 0 ≤ rate) : 0 ≤ ((due : ℚ) - 1 / 2 - now) / 10 ^ 9 * rate := by
  have next : (now : ℚ) + 1 ≤ due := by exact_mod_cast late
  have ahead : (0 : ℚ) ≤ (due : ℚ) - 1 / 2 - now := by linarith
  positivity

theorem take_lowers (finite : b.balance.IsFinite) (short : b.balance.value ≤ 1) (deep : -(2 ^ 64) ≤ b.balance.value) :
    b.take.balance.IsFinite ∧ b.take.balance.value ≤ b.balance.value ∧
      b.take.balance.value ≤ b.balance.value - 1 + (1 - b.balance.value) / 2 ^ 53 + Binary64.halfUnit := by
  have less := Binary64.sub_rounds finite Binary64.one_yields.1
  rw [Binary64.one_yields.2] at less
  have below : b.balance.value - 1 ≤ 0 := by linarith
  obtain ⟨takenFinite,near⟩ := less.within (by rw [abs_of_nonpos below]; linarith)
  rw [abs_of_nonpos below,abs_le] at near
  have lower := less.le (Binary64.finite_rounds finite) (by linarith)
  rw [Binary64.value_le takenFinite finite] at lower
  refine ⟨takenFinite,lower,?_⟩
  show (b.balance - 1).value ≤ _
  linarith

section Steps
variable (owes : 1 - b.balance.value ≤ debt) (few : (debt : ℚ) ≤ 2 ^ 49) (behind : b.Behind rate spare due)
  (left : 0 ≤ spare)
include owes few behind left

theorem behind_refill (flows : b.rate.Positive) (slow : b.rate.value ≤ rate) (past : b.refilled ≤ now)
    (early : now < due) : (b.refill now).Behind rate (spare - roundoff debt) due := by
  have tiny := Binary64.halfUnit_small
  have positive := Binary64.positive_value flows
  have owed := behind.owed
  have next : (now : ℚ) + 1 ≤ due := by exact_mod_cast early
  have begun : (b.refilled : ℚ) ≤ now := by exact_mod_cast past
  have span : ((now - b.refilled : Nat) : ℚ) / 10 ^ 9 = ((now : ℚ) - b.refilled) / 10 ^ 9 := by rw [Nat.cast_sub past]
  have spanLeast : (0 : ℚ) ≤ ((now : ℚ) - b.refilled) / 10 ^ 9 := by
    have ahead : (0 : ℚ) ≤ (now : ℚ) - b.refilled := by linarith
    positivity
  have rest := brings_nonneg early (positive.le.trans slow)
  have parts : ((due : ℚ) - 1 / 2 - b.refilled) / 10 ^ 9 * rate =
      ((due : ℚ) - 1 / 2 - now) / 10 ^ 9 * rate + ((now : ℚ) - b.refilled) / 10 ^ 9 * rate := by ring
  have brings := mul_le_mul_of_nonneg_left slow spanLeast
  obtain ⟨gainedFinite,gainedLeast,gainedMost⟩ := gained_most (d := now - b.refilled) flows
    ((Nat.sub_le now b.refilled).trans_lt (early.trans behind.inside)) (by rw [span]; linarith) few
  rw [span] at gainedMost
  have spread : 0 ≤ ((now : ℚ) - b.refilled) / 10 ^ 9 * b.rate.value := by positivity
  have sum := Binary64.add_rounds behind.finite gainedFinite
  have size : |b.balance.value + (Nanos.toSeconds (now - b.refilled) * b.rate).value| ≤ debt + 2 := by
    rw [abs_le]
    constructor <;> linarith
  obtain ⟨sumFinite,sumNear⟩ := sum.within (by linarith)
  obtain ⟨finite,most⟩ := Binary64.min_value sumFinite b.one_le_capacity
  have refilled : (b.refill now).refilled = now := Nat.max_eq_right past
  have balance : (b.refill now).balance.value ≤ (b.balance + Nanos.toSeconds (now - b.refilled) * b.rate).value := most
  have sumMost := (abs_le.mp sumNear).2
  refine ⟨behind.inside,finite,?_⟩
  rw [refilled,roundoff]
  linarith

theorem behind_take (late : b.refilled < due) (top : 0 ≤ rate) : b.take.Behind rate spare due := by
  have owed := behind.owed
  have rest := brings_nonneg late top
  obtain ⟨finite,balance,_⟩ := take_lowers behind.finite (by linarith) (by linarith)
  refine ⟨behind.inside,finite,?_⟩
  show ((due : ℚ) - 1 / 2 - b.refilled) / 10 ^ 9 * rate + spare ≤ _
  linarith

theorem behind_ready (flows : b.rate.Positive) (slow : b.rate.value ≤ rate) (clock : b.refilled = now)
    (early : now < due) (enough : roundoff debt ≤ spare) (told : b.readyAt now = some ready) : due ≤ ready := by
  have positive := Binary64.positive_value flows
  have top : 0 ≤ rate := positive.le.trans slow
  have owed := behind.owed
  rw [clock] at owed
  have rest := brings_nonneg early top
  rcases readyAt_cases told with ⟨stored,rfl⟩ | ⟨wait,_,converted,_,rfl⟩
  · have full := (Binary64.value_le Binary64.one_yields.1 behind.finite).mp stored
    rw [Binary64.one_yields.2] at full
    unfold roundoff at enough
    have some : (0 : ℚ) ≤ debt := Nat.cast_nonneg debt
    linarith
  · by_contra sooner
    have apart : ((now + wait : Nat) : ℚ) + 1 ≤ due := by exact_mod_cast Nat.not_le.mp sooner
    have repaid := (wait_priced flows behind.finite (by linarith) owes few converted).2
    have within : ((wait : ℚ) + 1 / 2) / 10 ^ 9 ≤ ((due : ℚ) - 1 / 2 - now) / 10 ^ 9 := by
      push_cast at apart
      linarith
    have waitLeast : (0 : ℚ) ≤ ((wait : ℚ) + 1 / 2) / 10 ^ 9 := by positivity
    have slower := mul_le_mul_of_nonneg_left slow waitLeast
    have shorter := mul_le_mul_of_nonneg_right within top
    unfold roundoff at enough
    have some : (0 : ℚ) ≤ debt := Nat.cast_nonneg debt
    linarith

end Steps

-- The permit of a wait is taken at once, so what is to spare is all but a whole one.
theorem behind_booked (finite : b.balance.IsFinite) (short : b.balance.value ≤ 1) (owes : 1 - b.balance.value ≤ debt)
    (few : (debt : ℚ) ≤ 2 ^ 49) (flows : b.rate.Positive) (clock : b.refilled = now)
    (converted : Nanos.ofSeconds b.debt = .ok wait) (inside : now + wait < Nanos.horizon) :
    b.take.Behind b.rate.value (1 - roundoff debt) (now + wait) := by
  have tiny := Binary64.halfUnit_small
  have repaid := (wait_priced flows finite short owes few converted).1
  obtain ⟨takenFinite,_,balance⟩ := take_lowers finite short (by linarith)
  have span : ((now + wait : Nat) : ℚ) - 1 / 2 - b.refilled = (wait : ℚ) - 1 / 2 := by
    rw [clock]
    push_cast
    ring
  refine ⟨inside,takenFinite,?_⟩
  show (((now + wait : Nat) : ℚ) - 1 / 2 - b.refilled) / 10 ^ 9 * b.rate.value + _ ≤ _
  rw [span,roundoff]
  linarith

-- The wait of this instant stays ahead of all that are booked from here on.
def Ahead (rate spare : ℚ) (due : Nanos) (b : Bucket) : Prop := due ≤ b.refilled ∨ b.Behind rate spare due

theorem reserve_booking {terms : Terms} (booked : (b.reserve now terms).1 = .booked ready) :
    (b.refill now).readyAt now = some ready ∧ (b.reserve now terms).2 = (b.refill now).take := by
  rcases b.reserve_cases now terms with eq | eq | ⟨named,told,eq⟩ <;> rw [eq] at booked <;> cases booked
  rw [eq]
  exact ⟨told,rfl⟩

theorem reserve_ready {terms : Terms} (told : (b.refill now).readyAt now = some ready) (accepted : terms.Accept ready) :
    b.reserve now terms = (.booked ready,(b.refill now).take) := by
  unfold reserve
  rw [told]
  exact if_pos accepted

theorem reserve_late {terms : Terms} (told : (b.refill now).readyAt now = some ready) (late : ¬ terms.Accept ready) :
    b.reserve now terms = (.refused,b.refill now) := by
  unfold reserve
  rw [told]
  exact if_neg late

theorem reserve_lost {terms : Terms} (lost : (b.refill now).readyAt now = none) :
    b.reserve now terms = (.overflow,b.refill now) := by
  unfold reserve
  rw [lost]

theorem reserve_accepted {terms : Terms} (booked : (b.reserve now terms).1 = .booked ready) : terms.Accept ready := by
  unfold reserve at booked
  split at booked
  · cases booked
  · split at booked
    · rename_i accepted
      cases booked
      exact accepted
    · cases booked

theorem now_le_ready (told : b.readyAt now = some ready) : now ≤ ready := by
  rcases readyAt_cases told with ⟨_,rfl⟩ | ⟨wait,_,_,_,rfl⟩
  · exact Nat.le_refl _
  · exact Nat.le_add_right _ _

section Booking
variable (solvent : b.Solvent 0 permits) (most : permits ≤ debt) (few : (debt : ℚ) ≤ 2 ^ 49)
  (ahead : b.Ahead rate spare due) (slow : b.rate.value ≤ rate) (past : b.refilled ≤ now)
include solvent most few ahead slow past

theorem ahead_refill (left : roundoff debt ≤ spare) (early : now < due) :
    (b.refill now).Behind rate (spare - roundoff debt) due ∧ 1 - (b.refill now).balance.value ≤ debt := by
  have behind := ahead.resolve_left (not_le.mpr (past.trans_lt early))
  have owes := owes_most solvent behind.finite most
  have some := roundoff_nonneg debt
  have refilled := behind_refill owes few behind (some.trans left) solvent.flows slow past early
  exact ⟨refilled,owes_most (solvent_refill solvent now) refilled.finite most⟩

theorem ahead_reserve (left : roundoff debt ≤ spare) (terms : Terms) :
    (b.reserve now terms).2.Ahead rate (spare - roundoff debt) due := by
  by_cases early : now < due
  · obtain ⟨refilled,owes⟩ := ahead_refill solvent most few ahead slow past left early
    have top : 0 ≤ rate := (Binary64.positive_value solvent.flows).le.trans slow
    have clock : (b.refill now).refilled = now := Nat.max_eq_right past
    have taken := behind_take owes few refilled (by linarith) (by rw [clock]; exact early) top
    rcases b.reserve_cases now terms with eq | eq | ⟨ready,_,eq⟩
    · rw [eq]; exact .inr refilled
    · rw [eq]; exact .inr refilled
    · rw [eq]; exact .inr taken
  · left
    rw [reserve_refilled]
    exact (Nat.not_lt.mp early).trans (Nat.le_max_right _ _)

theorem ahead_booked (left : 2 * roundoff debt ≤ spare) (terms : Terms) (booked : (b.reserve now terms).1 = .booked ready) :
    due ≤ ready := by
  have told := (reserve_booking booked).1
  by_cases early : now < due
  · have some := roundoff_nonneg debt
    obtain ⟨refilled,owes⟩ := ahead_refill solvent most few ahead slow past (by linarith) early
    exact behind_ready owes few refilled (by linarith) solvent.flows slow (Nat.max_eq_right past) early (by linarith) told
  · exact (Nat.not_lt.mp early).trans (now_le_ready told)

end Booking

theorem booked_ahead (solvent : b.Solvent 0 permits) (clock : b.refilled = now) (told : b.readyAt now = some ready)
    (owes : 1 - b.take.balance.value ≤ debt) (few : (debt : ℚ) ≤ 2 ^ 49) :
    b.take.Ahead b.rate.value (1 - roundoff debt) ready := by
  rcases readyAt_cases told with ⟨_,rfl⟩ | ⟨wait,short,converted,inside,rfl⟩
  · exact .inl (Nat.le_of_eq clock.symm)
  · obtain ⟨finite,above⟩ := short_balance solvent short
    have below : b.balance.value ≤ 1 := ((Binary64.below_one finite).mp short).le
    have deepest := lowest_deepest permits
    have lower := (take_lowers finite below (by linarith)).2.1
    exact .inr (behind_booked finite below (by linarith) few solvent.flows clock converted inside)

theorem ahead_retune (ahead : b.Ahead rate spare due) (other : Binary64) : (b.retune other).Ahead rate spare due := by
  unfold Ahead retune at *
  split
  · exact ahead.imp id fun behind => ⟨behind.inside,behind.finite,behind.owed⟩
  · exact ahead

-- Each attempt to book may use up what one booking's rounding is worth.
theorem ahead_run {top : Binary64} (ops : List Op) (finite : top.IsFinite) (solvent : b.Solvent 0 permits)
    (orderly : b.Orderly live ops) (kept : givenBack ops = 0) (slow : ∀ passed ∈ b.trail ops, passed.rate ≤ top)
    (most : permits + b.taken ops ≤ debt) (few : (debt : ℚ) ≤ 2 ^ 49) (ahead : b.Ahead top.value spare due)
    (left : (b.diary ops).length * roundoff debt ≤ spare) :
    (b.run ops).Ahead top.value (spare - (b.diary ops).length * roundoff debt) due := by
  induction ops generalizing b live permits spare with
  | nil => simpa [diary] using ahead
  | cons op rest ih =>
    have here : b.rate.value ≤ top.value :=
      (Binary64.value_le solvent.flows.1 finite).mp (slow b List.mem_cons_self)
    have next : (b.apply op).Solvent 0 (permits + b.permits op) :=
      solvent_apply solvent fun _ _ flows => (Binary64.positive_value flows).le
    have later : ∀ passed ∈ (b.apply op).trail rest, passed.rate ≤ top :=
      fun passed member => slow passed (List.mem_cons_of_mem b member)
    obtain ⟨first,others⟩ := orderly
    have total : permits + b.taken (op :: rest) = permits + b.permits op + (b.apply op).taken rest :=
      (Nat.add_assoc _ _ _).symm
    rw [total] at most
    cases op with
    | giveBack instant => cases kept
    | retune other => exact ih next others kept later most (ahead_retune ahead other) left
    | reserve now terms =>
      have some := roundoff_nonneg debt
      have count : ((b.diary (.reserve now terms :: rest)).length : ℚ) =
          ((b.apply (.reserve now terms)).diary rest).length + 1 := by
        rw [diary,List.length_cons]
        push_cast
        rfl
      rw [count] at left ⊢
      have attempts : (0 : ℚ) ≤ ((b.apply (.reserve now terms)).diary rest).length := Nat.cast_nonneg _
      have used : 0 ≤ ((b.apply (.reserve now terms)).diary rest).length * roundoff debt := by positivity
      have fewer : permits ≤ debt := by omega
      have step := ahead_reserve solvent fewer few ahead here first (by linarith) terms
      have ran := ih next others kept later most step (by linarith)
      have rest_spare : spare - roundoff debt - ((b.apply (.reserve now terms)).diary rest).length * roundoff debt =
          spare - (((b.apply (.reserve now terms)).diary rest).length + 1) * roundoff debt := by ring
      rwa [rest_spare] at ran

theorem run_trail (b : Bucket) (ops : List Op) : b.run ops ∈ b.trail ops := by
  induction ops generalizing b with
  | nil => exact List.mem_singleton_self b
  | cons op rest ih => exact List.mem_cons_of_mem b (ih (b.apply op))

section Order
variable {found : Bucket} {first second last : Nanos} {terms others : Terms} {between after : List Op}

theorem booked_in_order (solvent : found.Solvent 0 permits)
    (orderly : found.Orderly live (.reserve first terms :: (between ++ .reserve second others :: after)))
    (booked : (found.reserve first terms).1 = .booked ready)
    (later : (((found.reserve first terms).2.run between).reserve second others).1 = .booked last)
    (kept : givenBack between = 0)
    (slow : ∀ passed ∈ (found.reserve first terms).2.trail between, passed.rate ≤ found.rate)
    (owes : 1 - (found.reserve first terms).2.balance.value ≤ debt)
    (few : (((found.reserve first terms).2.diary between).length + 3) *
      (debt + (found.reserve first terms).2.taken between + 2) ≤ 2 ^ 49) : ready ≤ last := by
  obtain ⟨past,rest⟩ := orderly
  obtain ⟨told,same⟩ := reserve_booking booked
  rw [apply] at rest
  rw [same] at rest later slow owes few
  generalize attempted : ((found.refill first).take.diary between).length = attempts at few
  generalize total : debt + (found.refill first).take.taken between = most at few
  have solvent := solvent_refill solvent first
  have clock : (found.refill first).refilled = first := Nat.max_eq_right past
  have small : most ≤ 2 ^ 49 := by nlinarith
  have fewer : debt ≤ most := by omega
  have cast : (debt : ℚ) ≤ most := by exact_mod_cast fewer
  have smallCast : (most : ℚ) ≤ 2 ^ 49 := by exact_mod_cast small
  have room : ((attempts : ℚ) + 3) * roundoff most ≤ 1 := by
    have product : ((attempts : ℚ) + 3) * (most + 2) ≤ 2 ^ 49 := by exact_mod_cast few
    rw [roundoff,← mul_div_assoc]
    exact div_le_one_of_le₀ product (by positivity)
  have some := roundoff_nonneg most
  have ahead := booked_ahead solvent clock told (owes.trans cast) smallCast
  have begins : (found.refill first).take.Solvent 0 debt :=
    solvent_owes (solvent_take solvent) owes (by lia)
  obtain ⟨orderly,next⟩ := (orderly_append _ _ _ _).mp rest
  have ended := solvent_run between begins fun _ _ flows => (Binary64.positive_value flows).le
  have still := ahead_run between solvent.flows.1 begins orderly kept slow (by omega) smallCast ahead
    (by rw [attempted]; linarith)
  rw [attempted] at still
  have rate := slow _ (run_trail _ between)
  exact ahead_booked ended (by omega) smallCast still ((Binary64.value_le ended.flows.1 solvent.flows.1).mp rate)
    next.1 (by linarith) others later

end Order

theorem run_deep (n : Nat) : (⟨1,0,1,0⟩ : Bucket).run (List.replicate n (.reserve 0 .anyTime)) = ⟨1,0,lowest n,0⟩ := by
  induction n with
  | zero => rfl
  | succ n ih =>
    rw [List.replicate_succ',run_append,ih,run_cons,run_nil,apply]
    generalize held : (⟨1,0,lowest n,0⟩ : Bucket) = b
    have solvent : b.Solvent 1 n := by
      have flows := Binary64.one_positive
      rw [← held]
      refine ⟨flows,Binary64.one_yields.2.ge,?_⟩
      exact (Binary64.value_le (lowest_yields n).1 (lowest_yields n).1).mpr le_rfl
    have told : (b.reserve 0 .anyTime).1 ≠ .overflow := by
      have repaid : (min n (2 ^ 53) : Nat) ≤ ((2 ^ 53 : Nat) : ℚ) * 1 := by
        rw [mul_one]
        exact_mod_cast min_le_right _ _
      exact reserve_told solvent one_pos repaid (Binary64.ofNat_yields (Nat.le_refl _)) (by decide) .anyTime
    have sum : lowest n + 0 = lowest n := by
      rcases n with _ | _ | n
      · decide +kernel
      · decide +kernel
      · obtain ⟨finite,value⟩ := lowest_yields (n + 2)
        have several : 2 ≤ min (n + 2) (2 ^ 53 + 1) := Nat.le_min.mpr ⟨Nat.le_add_left 2 n,by decide⟩
        have cast : (2 : ℚ) ≤ (min (n + 2) (2 ^ 53 + 1) : Nat) := by exact_mod_cast several
        exact Binary64.add_zero_exact finite (by rw [value]; linarith)
    have refilled : b.refill 0 = b := by
      have gained : Nanos.toSeconds (0 - 0) * 1 = 0 := by decide +kernel
      have capacity : max ((0 : Binary64) * 1) 1 = 1 := by decide +kernel
      rw [← held]
      show (⟨1,0,min (lowest n + Nanos.toSeconds (0 - 0) * 1) (max (0 * 1) 1),max 0 0⟩ : Bucket) = _
      rw [gained,sum,capacity,Binary64.min_of_le (lowest_le_one n)]
      rfl
    rcases b.reserve_cases 0 .anyTime with eq | eq | ⟨ready,_,eq⟩
    · rw [eq] at told
      exact absurd rfl told
    · exact absurd (congrArg Prod.fst eq) (b.reserve_anyTime 0)
    · rw [eq,refilled,← held]
      rfl

theorem run_deepest {n : Nat} (deepest : n = 2 ^ 53) :
    (⟨1,0,1,0⟩ : Bucket).run (List.replicate n (.reserve 0 .anyTime)) = ⟨1,0,-Binary64.ofNat (2 ^ 53 - 1),0⟩ := by
  obtain ⟨finite,value⟩ := lowest_yields n
  obtain ⟨owedFinite,owed⟩ := Binary64.negate_yields (Binary64.ofNat_yields (n := 2 ^ 53 - 1) (by decide))
  have same : (lowest n).value = (-Binary64.ofNat (2 ^ 53 - 1)).value := by
    rw [value,owed,deepest]
    norm_num
  have some : (lowest n).value ≠ 0 := by
    rw [same,owed]
    norm_num
  rw [run_deep,Binary64.eq_of_value finite owedFinite some same]

-- With 2^53 permits owed a second brings more than one of them, so a later wait can be due first.
theorem steady_rate_overtaken :
    let found := (⟨1,0,1,0⟩ : Bucket).run (List.replicate (2 ^ 53) (.reserve 0 .anyTime))
    let left := (found.reserve 0 .anyTime).2
    let between : List Op := [.reserve 600000000 (.by 600000000),.reserve 1200000000 (.by 1200000000)]
    (found.reserve 0 .anyTime).1 = .booked (2 ^ 53 * Nanos.perSecond) ∧ (left.diary between).length = 2 ∧
      ((left.run between).reserve 1800000000 .anyTime).1 = .booked (2 ^ 53 * Nanos.perSecond - 200000000) := by
  rw [run_deepest rfl]
  exact ⟨by decide +kernel,by decide +kernel,by decide +kernel⟩

end LoadPacing.Bucket
