import LoadPacing.Proofs.Binary64.Monotone
import LoadPacing.Proofs.Binary64.Signs
import LoadPacing.Proofs.Regulator.Readings

-- No round cuts the rate below the share of the target in a full load.
namespace LoadPacing

variable {x m target rate previous current : Binary64}

namespace Load

-- All that the regulation may be told of a location.
def Capped (x : Binary64) : Prop := x.Positive ∧ x ≤ 100

instance (x : Binary64) : Decidable (Capped x) := inferInstanceAs (Decidable (_ ∧ _))

theorem full_usable : (100 : Binary64).Positive := Binary64.ofNat_positive (by decide) (by decide)

theorem overload_capped : Capped overload := by decide +kernel

theorem usable_capped {reading : Reading} (kept : usable reading = some x) : Capped x := by
  unfold usable at kept
  split at kept
  · rename_i positive
    have number := Binary64.finite_ne_nan positive.1
    have full := Binary64.finite_ne_nan full_usable.1
    cases kept
    refine ⟨?_,Binary64.min_le_right full⟩
    rcases Binary64.min_cases reading.percent 100 with own | capped
    · rwa [own]
    · rw [capped]
      exact full_usable
  · cases kept

theorem sample_capped {readings : List Reading} (member : x ∈ sample readings) : Capped x := by
  obtain ⟨reading,_,kept⟩ := List.mem_filterMap.mp member
  exact usable_capped kept

-- The least that the law makes of a rate.
theorem law_floor (aimed : target.Positive) (flows : rate.Positive) (capped : Capped m) :
    rate * (target / 100) ≤ rate * (target / m) :=
  law_antitone aimed flows capped.1 full_usable capped.2

end Load

def Stimulus.Capped (stimulus : Stimulus) : Prop := ∀ x ∈ stimulus.samples, Load.Capped x

theorem Stimulus.deadline_capped : Stimulus.deadline.Capped := List.forall_mem_singleton.mpr Load.overload_capped

structure Regulator.Flowing (r : Regulator) : Prop where
  lower : r.lower.Positive
  upper : r.upper.Positive
  flows : r.bucket.rate.Positive

namespace Bucket

theorem retune_flows {b : Bucket} (flows : b.rate.Positive) (rate : Binary64) : (b.retune rate).rate.Positive := by
  unfold retune
  split
  · rename_i usable
    exact usable
  · exact flows

theorem retune_rate {b : Bucket} (usable : rate.Positive) : (b.retune rate).rate = rate := by
  unfold retune
  rw [if_pos usable]

end Bucket

namespace Regulator
variable {r after : Regulator} {tuning : Tuning} {now : Nanos} {verdict : Verdict}

theorem Flowing.contains (flowing : r.Flowing) (inside : r.Contains rate) : rate.Positive :=
  Binary64.positive_of_within flowing.lower flowing.upper inside

theorem Flowing.settled (flowing : r.Flowing) (settled : r.Settled now verdict after) : after.Flowing := by
  rcases settled with ⟨rate,_,_,rfl⟩ | ⟨_,rfl⟩
  · exact ⟨flowing.lower,flowing.upper,Bucket.retune_flows flowing.flows rate⟩
  · exact flowing

theorem Flowing.applied (flowing : r.Flowing) (settled : r.Settled now (.applied previous current) after) :
    after.bucket.rate = current := by
  rcases settled with ⟨rate,inside,told,rfl⟩ | ⟨kept,_⟩
  · rw [(Verdict.applied.inj told).2]
    exact Bucket.retune_rate (flowing.contains inside)
  · cases kept

end Regulator

-- A round that its readings cannot carry away.
structure Hearing.Bounded (h : Hearing) : Prop where
  flowing : h.regulator.Flowing
  aimed : h.tuning.target.Positive
  capped : h.stimulus.Capped

namespace Hearing
variable {h : Hearing}

theorem verdict_samples (h : Hearing) :
    h.verdict = (h.regulator.observe h.tuning h.now h.stimulus.samples).1 := by
  unfold verdict outcome
  cases h.stimulus <;> rfl

theorem outcome_settled (h : Hearing) : h.regulator.Settled h.now h.verdict h.outcome.2.1 := by
  unfold verdict outcome
  cases h.stimulus with
  | load samples => exact h.regulator.observe_settled h.tuning h.now samples
  | deadline => exact h.regulator.observe_settled h.tuning h.now [Load.overload]

theorem Bounded.busiest_capped (bounded : h.Bounded) (found : h.busiest = some m) : Load.Capped m :=
  bounded.capped m (Load.busiest_largest.mp found).member

theorem Bounded.applied_floor (bounded : h.Bounded) (applied : h.verdict = .applied previous current) :
    h.regulator.bucket.rate * (h.tuning.target / 100) ≤ current := by
  have told := h.verdict_samples
  rw [applied] at told
  cases found : h.busiest with
  | none =>
    have silent : h.verdict = .noSignal := h.verdict_silent.mpr (by simp [found])
    rw [silent] at applied
    cases applied
  | some m =>
    have largest := Load.busiest_largest.mp found
    have candidate := h.regulator.observe_candidate h.tuning h.now largest
    rw [← told] at candidate
    dsimp only [Verdict.candidate] at candidate
    split at candidate
    · rw [Option.some.inj candidate]
      exact Load.law_floor bounded.aimed bounded.flowing.flows (bounded.busiest_capped found)
    · cases candidate

theorem Bounded.applied_rate (bounded : h.Bounded) (applied : h.verdict = .applied previous current) :
    h.outcome.2.1.bucket.rate = current := by
  have settled := h.outcome_settled
  rw [applied] at settled
  exact bounded.flowing.applied settled

end Hearing
end LoadPacing
