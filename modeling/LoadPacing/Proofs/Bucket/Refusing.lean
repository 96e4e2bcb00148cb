import LoadPacing.Proofs.Binary64.Signs
import LoadPacing.Proofs.Bucket.Admission

-- Later bookings cannot tell that one was refused: a second refill at the same instant changes no bit.
namespace LoadPacing.Bucket
variable {b one two : Bucket} {now : Nanos}

theorem refill_plain (flows : b.rate.Positive) (now : Nanos) : (b.refill now).balance + 0 = (b.refill now).balance := by
  have inward : (Nanos.toSeconds (now - b.refilled) * b.rate).sign = false :=
    Binary64.mul_sign (Binary64.toSeconds_sign _) (Binary64.positive_sign flows)
  exact Binary64.min_add_zero b.balance inward b.one_le_capacity

theorem refill_again (flows : b.rate.Positive) (now : Nanos) : (b.refill now).refill now = b.refill now := by
  have seconds := Binary64.toSeconds_zero
  have plain := b.refill_plain flows now
  have clock : now - (b.refill now).refilled = 0 := Nat.sub_eq_zero_of_le (Nat.le_max_right _ _)
  have refilled : max (b.refill now).refilled now = (b.refill now).refilled := Nat.max_eq_left (Nat.le_max_right _ _)
  have capped : min (b.refill now).balance (b.refill now).capacity = (b.refill now).balance := Binary64.min_again _ _
  have still : 0 * (b.refill now).rate = 0 := Binary64.zero_mul flows
  unfold refill at clock refilled plain capped still ⊢
  rw [clock,seconds,still,plain,capped,refilled]

theorem reserve_alike (same : one.refill now = two.refill now) (terms : Terms) :
    one.reserve now terms = two.reserve now terms := by
  unfold reserve
  rw [same]

theorem reserve_again (flows : b.rate.Positive) (now : Nanos) (terms : Terms) :
    (b.refill now).reserve now terms = b.reserve now terms := reserve_alike (b.refill_again flows now) terms

theorem reserve_unbooked {terms : Terms} (unbooked : (b.reserve now terms).1.permits = 0) :
    (b.reserve now terms).2 = b.refill now := by
  rcases b.reserve_cases now terms with eq | eq | ⟨ready,_,eq⟩ <;> rw [eq] at unbooked ⊢
  cases unbooked

theorem run_flows (flows : b.rate.Positive) (ops : List Op) : (b.run ops).rate.Positive := by
  induction ops generalizing b with
  | nil => exact flows
  | cons op rest ih =>
    refine ih ?_
    cases op with
    | reserve now terms =>
      show (b.reserve now terms).2.rate.Positive
      rw [reserve_rate]
      exact flows
    | giveBack ready => exact flows
    | retune rate =>
      show (b.retune rate).rate.Positive
      unfold retune
      split
      · assumption
      · exact flows

end LoadPacing.Bucket
