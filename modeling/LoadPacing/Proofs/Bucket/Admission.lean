import LoadPacing.Proofs.Binary64.Value
import LoadPacing.Proofs.Bucket.Ledger

-- The permits that are out are covered by the first one and by what the rate brought in.
namespace LoadPacing.Bucket

def RefillExact (b : Bucket) (now : Nanos) : Prop :=
  (Nanos.toSeconds (now - b.refilled)).Yields ((now - b.refilled : Nat) / 10 ^ 9) ∧
  (Nanos.toSeconds (now - b.refilled) * b.rate).Yields
    ((Nanos.toSeconds (now - b.refilled)).value * b.rate.value) ∧
  (b.balance + Nanos.toSeconds (now - b.refilled) * b.rate).Yields
    (b.balance.value + (Nanos.toSeconds (now - b.refilled) * b.rate).value)

def DebtExact (b : Bucket) : Prop :=
  (1 - b.balance).Yields (1 - b.balance.value) ∧ b.debt.Yields ((1 - b.balance).value / b.rate.value)

-- The debt is computed only where the balance is short of a permit.
def Exact (b : Bucket) : Op → Prop
  | .reserve now terms =>
    b.RefillExact now ∧ (¬ 1 ≤ (b.refill now).balance → (b.refill now).DebtExact) ∧
    ((b.reserve now terms).1.permits = 1 →
      ((b.refill now).balance - 1).Yields ((b.refill now).balance.value - 1))
  | .giveBack _ => (b.balance + 1).Yields (b.balance.value + 1)
  | .retune _ => True

def ExactRun (b : Bucket) : List Op → Prop
  | [] => True
  | op :: rest => b.Exact op ∧ (b.apply op).ExactRun rest

instance (b : Bucket) (now : Nanos) : Decidable (b.RefillExact now) :=
  inferInstanceAs (Decidable (_ ∧ _))

instance (b : Bucket) : Decidable b.DebtExact := inferInstanceAs (Decidable (_ ∧ _))

instance (b : Bucket) (op : Op) : Decidable (b.Exact op) := by
  cases op <;> unfold Exact <;> infer_instance

instance decidableExactRun (b : Bucket) : (ops : List Op) → Decidable (b.ExactRun ops)
  | [] => isTrue trivial
  | op :: rest =>
    have := decidableExactRun (b.apply op) rest
    inferInstanceAs (Decidable (_ ∧ _))

-- The bucket before each operation and after the last one.
def trail (b : Bucket) : List Op → List Bucket
  | [] => [b]
  | op :: rest => b :: (b.apply op).trail rest

-- Every permit that is out is paid for, and those due by any instant are no more than the rate brings by then.
structure Covered (R : ℚ) (start : Nanos) (b : Bucket) (live : List Nanos) : Prop where
  begun : start ≤ b.refilled
  flows : b.rate.Positive
  finite : b.balance.IsFinite
  paid : b.balance.value + live.length ≤ 1 + R * (((b.refilled : ℚ) - start) / 10 ^ 9)
  due : ∀ elapsed : Nanos,
    (live.countP (· ≤ start + elapsed) : ℚ) ≤ 1 + R * (((elapsed : ℚ) + 1 / 2) / 10 ^ 9)

variable {R : ℚ} {start : Nanos} {b : Bucket} {live : List Nanos} {now : Nanos}

theorem one_le_capacity (b : Bucket) : 1 ≤ b.capacity := Binary64.one_le_max _

theorem covered_new {rate burst : Binary64} (made : Bucket.new rate burst start = .ok b) (slow : b.rate.value ≤ R) :
    Covered R start b [] := by
  obtain ⟨flows,_,_,rfl⟩ := new_ok made
  have positive := Binary64.positive_value flows
  have most : (0 : ℚ) ≤ R := le_of_lt (lt_of_lt_of_le positive slow)
  refine ⟨Nat.le_refl _,flows,Binary64.one_yields.1,?_,?_⟩
  · simp [Binary64.one_yields.2]
  · intro elapsed
    have none : (0 : ℚ) ≤ R * (((elapsed : ℚ) + 1 / 2) / 10 ^ 9) := by positivity
    simp only [List.countP_nil,Nat.cast_zero]
    linarith

theorem covered_refill (covered : Covered R start b live) (past : b.refilled ≤ now) (unrounded : b.RefillExact now)
    (slow : b.rate.value ≤ R) : Covered R start (b.refill now) live ∧ (b.refill now).refilled = now := by
  obtain ⟨⟨_,elapsed⟩,⟨_,gained⟩,⟨finite,sum⟩⟩ := unrounded
  obtain ⟨stays,most⟩ := Binary64.min_value finite b.one_le_capacity
  have refilled : (b.refill now).refilled = now := Nat.max_eq_right past
  refine ⟨⟨?_,covered.flows,stays,?_,covered.due⟩,refilled⟩
  · rw [refilled]
    exact Nat.le_trans covered.begun past
  · have balance : (b.refill now).balance.value ≤
        b.balance.value + ((now : ℚ) - b.refilled) / 10 ^ 9 * b.rate.value := by
      rw [sum,gained,elapsed,Nat.cast_sub past] at most
      exact most
    have brought : ((now : ℚ) - b.refilled) / 10 ^ 9 * b.rate.value ≤
        ((now : ℚ) - b.refilled) / 10 ^ 9 * R := by
      have ahead : (0 : ℚ) ≤ (now : ℚ) - b.refilled := by
        rw [sub_nonneg]
        exact_mod_cast past
      exact mul_le_mul_of_nonneg_left slow (by positivity)
    rw [refilled]
    linarith [covered.paid]

theorem covered_retune (covered : Covered R start b live) (rate : Binary64) :
    Covered R start (b.retune rate) live := by
  by_cases flows : rate.Positive
  · have same : b.retune rate = { b with rate } := if_pos flows
    rw [same]
    exact ⟨covered.begun,flows,covered.finite,covered.paid,covered.due⟩
  · have same : b.retune rate = b := if_neg flows
    rw [same]
    exact covered

theorem covered_giveBack (covered : Covered R start b live) (out : ready ∈ live)
    (unrounded : (b.balance + 1).Yields (b.balance.value + 1)) : Covered R start b.giveBack (live.erase ready) := by
  obtain ⟨finite,sum⟩ := unrounded
  obtain ⟨stays,most⟩ := Binary64.min_value finite b.one_le_capacity
  refine ⟨covered.begun,covered.flows,stays,?_,?_⟩
  · have fewer : ((live.erase ready).length : ℚ) = live.length - 1 := by
      have some := List.length_pos_of_mem out
      rw [List.length_erase_of_mem out,Nat.cast_sub some]
      simp
    rw [sum] at most
    have balance : b.giveBack.balance.value ≤ b.balance.value + 1 := most
    rw [fewer]
    show _ ≤ 1 + R * (((b.refilled : ℚ) - start) / 10 ^ 9)
    linarith [covered.paid]
  · intro elapsed
    have fewer : (live.erase ready).countP (· ≤ start + elapsed) ≤ live.countP (· ≤ start + elapsed) :=
      List.Sublist.countP_le List.erase_sublist
    have bound := covered.due elapsed
    have cast : ((live.erase ready).countP (· ≤ start + elapsed) : ℚ) ≤ live.countP (· ≤ start + elapsed) := by
      exact_mod_cast fewer
    linarith

theorem credit_repaid (flows : b.rate.Positive) (unrounded : b.DebtExact) (slow : b.rate.value ≤ R)
    (converted : Nanos.ofSeconds b.debt = .ok wait) :
    1 - b.balance.value ≤ R * (((wait : ℚ) + 1 / 2) / 10 ^ 9) := by
  obtain ⟨⟨finite,difference⟩,⟨quotientFinite,quotient⟩⟩ := unrounded
  have positive := Binary64.positive_value flows
  have rounded := Nanos.ofSeconds_value quotientFinite converted
  rw [quotient,difference] at rounded
  have owed : (1 - b.balance.value) / b.rate.value ≤ ((wait : ℚ) + 1 / 2) / 10 ^ 9 := by
    rw [le_div_iff₀ (by positivity)]
    exact rounded
  have later : (0 : ℚ) ≤ ((wait : ℚ) + 1 / 2) / 10 ^ 9 := by positivity
  calc 1 - b.balance.value = (1 - b.balance.value) / b.rate.value * b.rate.value := by
        rw [div_mul_cancel₀ _ (ne_of_gt positive)]
    _ ≤ ((wait : ℚ) + 1 / 2) / 10 ^ 9 * b.rate.value := mul_le_mul_of_nonneg_right owed (le_of_lt positive)
    _ ≤ ((wait : ℚ) + 1 / 2) / 10 ^ 9 * R := mul_le_mul_of_nonneg_left slow later
    _ = R * (((wait : ℚ) + 1 / 2) / 10 ^ 9) := mul_comm _ _

theorem readyAt_cases (at_ : b.readyAt now = some ready) :
    (1 ≤ b.balance ∧ ready = now) ∨
    ∃ wait, ¬ 1 ≤ b.balance ∧ Nanos.ofSeconds b.debt = .ok wait ∧ now + wait < Nanos.horizon ∧ ready = now + wait := by
  unfold readyAt at at_
  split at at_
  · rename_i stored
    cases at_
    exact .inl ⟨stored,rfl⟩
  · rename_i short
    split at at_
    · rename_i wait converted
      unfold Nanos.after at at_
      split at at_
      · rename_i inside
        cases at_
        exact .inr ⟨wait,short,converted,inside,rfl⟩
      · cases at_
    · cases at_

theorem booking_paid (covered : Covered R start b live) (slow : b.rate.value ≤ R)
    (unrounded : ¬ 1 ≤ b.balance → b.DebtExact) (at_ : b.readyAt b.refilled = some ready) :
    (live.length : ℚ) ≤ R * (((ready : ℚ) - start + 1 / 2) / 10 ^ 9) := by
  have positive := Binary64.positive_value covered.flows
  have most : (0 : ℚ) ≤ R := le_of_lt (lt_of_lt_of_le positive slow)
  have paid := covered.paid
  rcases readyAt_cases at_ with ⟨stored,rfl⟩ | ⟨wait,short,converted,_,rfl⟩
  · have one := (Binary64.value_le Binary64.one_yields.1 covered.finite).mp stored
    rw [Binary64.one_yields.2] at one
    have half : (0 : ℚ) ≤ R * (1 / 2 / 10 ^ 9) := by positivity
    linarith
  · have repaid := credit_repaid covered.flows (unrounded short) slow converted
    push_cast
    linarith

theorem covered_take (covered : Covered R start b live) (slow : b.rate.value ≤ R)
    (debt : ¬ 1 ≤ b.balance → b.DebtExact) (unrounded : (b.balance - 1).Yields (b.balance.value - 1))
    (at_ : b.readyAt b.refilled = some ready) : Covered R start b.take (ready :: live) := by
  obtain ⟨finite,difference⟩ := unrounded
  have positive := Binary64.positive_value covered.flows
  have most : (0 : ℚ) ≤ R := le_of_lt (lt_of_lt_of_le positive slow)
  refine ⟨covered.begun,covered.flows,finite,?_,?_⟩
  · have balance : b.take.balance.value = b.balance.value - 1 := difference
    rw [balance,List.length_cons]
    push_cast
    show _ ≤ 1 + R * (((b.refilled : ℚ) - start) / 10 ^ 9)
    linarith [covered.paid]
  · intro elapsed
    rw [List.countP_cons]
    by_cases early : ready ≤ start + elapsed
    · have booked := booking_paid covered slow debt at_
      have some : (live.countP (· ≤ start + elapsed) : ℚ) ≤ live.length := by
        exact_mod_cast List.countP_le_length
      have within : (ready : ℚ) - start ≤ elapsed := by
        have cast : (ready : ℚ) ≤ start + elapsed := by exact_mod_cast early
        linarith
      have grown : R * (((ready : ℚ) - start + 1 / 2) / 10 ^ 9) ≤ R * (((elapsed : ℚ) + 1 / 2) / 10 ^ 9) := by
        gcongr
      simp only [early,decide_true,if_true]
      push_cast
      linarith
    · simpa [early] using covered.due elapsed

theorem covered_apply (covered : Covered R start b live) (inOrder : b.InOrder live op) (unrounded : b.Exact op)
    (slow : b.rate.value ≤ R) : Covered R start (b.apply op) (b.record live op) := by
  cases op with
  | reserve now terms =>
    obtain ⟨refill,debt,taken⟩ := unrounded
    obtain ⟨refilled,clock⟩ := covered_refill covered inOrder refill slow
    show Covered R start (b.reserve now terms).2 ((b.reserve now terms).1.held ++ live)
    rcases b.reserve_cases now terms with eq | eq | ⟨ready,at_,eq⟩
    · rw [eq]; exact refilled
    · rw [eq]; exact refilled
    · rw [eq] at taken ⊢
      have due : (b.refill now).readyAt (b.refill now).refilled = some ready := by rw [clock]; exact at_
      exact covered_take refilled slow debt (taken rfl) due
  | giveBack ready => exact covered_giveBack covered inOrder unrounded
  | retune rate => exact covered_retune covered rate

theorem covered_run (ops : List Op) (covered : Covered R start b live) (orderly : b.Orderly live ops)
    (unrounded : b.ExactRun ops) (slow : ∀ passed ∈ b.trail ops, passed.rate.value ≤ R) :
    Covered R start (b.run ops) (b.ledger live ops) := by
  induction ops generalizing b live with
  | nil => exact covered
  | cons op rest ih =>
    have next := covered_apply covered orderly.1 unrounded.1 (slow b List.mem_cons_self)
    exact ih next orderly.2 unrounded.2 fun passed member => slow passed (List.mem_cons_of_mem b member)

end LoadPacing.Bucket
