import LoadPacing.Proofs.Load.Law
import LoadPacing.Proofs.Regulator.Tallies

-- A control round depends on its readings by the busiest usable one alone.
namespace LoadPacing

variable {samples others : List Binary64} {m target rate : Binary64}

-- The candidate that a verdict is about.
def Verdict.candidate : Verdict → Option Binary64
  | .noSignal => none
  | .outOfBounds candidate | .coolingDown candidate _ | .applied _ candidate => some candidate

namespace Regulator
variable {r : Regulator} {tuning : Tuning} {now : Nanos}

theorem settle_candidate (r : Regulator) (tuning : Tuning) (now : Nanos) (candidate : Binary64) :
    (r.settle tuning now candidate).1.candidate = some candidate := by
  unfold settle
  rcases r.commit_cases candidate now tuning.cooldown with ⟨_,eq⟩ | ⟨_,_,_,eq⟩ | ⟨_,_,eq⟩ <;> rw [eq] <;> rfl

theorem observe_candidate (r : Regulator) (tuning : Tuning) (now : Nanos) (largest : Load.Largest samples m) :
    (r.observe tuning now samples).1.candidate =
      let candidate := r.bucket.rate * (tuning.target / m)
      if candidate.IsFinite then some candidate else none := by
  rw [observe,Load.busiest_largest.mpr largest,Load.nextRate_largest largest]
  dsimp only
  split
  · exact r.settle_candidate tuning now _
  · rfl

-- Two rounds that differ in nothing but the number of locations that they log.
structure Alike (one two : Verdict × Regulator × List Notice) : Prop where
  verdict : one.1 = two.1
  state : one.2.1 = two.2.1
  metrics : one.2.2.flatMap Notice.metrics = two.2.2.flatMap Notice.metrics

theorem observe_alike (same : Load.busiest others = Load.busiest samples) :
    Alike (r.observe tuning now others) (r.observe tuning now samples) := by
  have law : Load.nextRate others tuning.target r.bucket.rate = Load.nextRate samples tuning.target r.bucket.rate := by
    rw [Load.nextRate_busiest,Load.nextRate_busiest,same]
  unfold observe
  rw [same,law]
  cases Load.busiest samples with
  | none => exact ⟨rfl,rfl,rfl⟩
  | some m =>
    dsimp only
    split
    · exact ⟨rfl,rfl,rfl⟩
    · exact ⟨rfl,rfl,rfl⟩

theorem observe_records (r : Regulator) (tuning : Tuning) (now : Nanos) (samples : List Binary64) :
    Metric.records "cpu_throttle_observed_cpu" ((r.observe tuning now samples).2.2.flatMap Notice.metrics) =
      (Load.busiest samples).toList := by
  let heard : Hearing := ⟨r,tuning,now,.load samples⟩
  have loads := heard.tallied_one.loads
  rw [← heard.outcome_metrics] at loads
  refine loads.trans ?_
  show [heard].filterMap Hearing.busiest = heard.busiest.toList
  cases busiest : heard.busiest <;> simp [busiest]

def Reports (r : Regulator) (tuning : Tuning) (now : Nanos) (samples : List Binary64) : Prop :=
  let round := r.observe tuning now samples
  let recorded := Metric.records "cpu_throttle_observed_cpu" (round.2.2.flatMap Notice.metrics)
  (∀ x ∈ samples, ¬ x.Positive) ∧ recorded = [] ∧ round.1.candidate = none ∨
    ∃ m, Load.Largest samples m ∧ recorded = [m] ∧
      let candidate := r.bucket.rate * (tuning.target / m)
      Load.nextRate samples tuning.target r.bucket.rate = candidate ∧
        round.1.candidate = if candidate.IsFinite then some candidate else none

theorem observe_reports (r : Regulator) (tuning : Tuning) (now : Nanos) (samples : List Binary64) :
    r.Reports tuning now samples := by
  have records := r.observe_records tuning now samples
  cases busiest : Load.busiest samples with
  | none =>
    rw [busiest] at records
    refine .inl ⟨Load.busiest_none.mp busiest,records,?_⟩
    rw [observe,busiest]
    rfl
  | some m =>
    rw [busiest] at records
    have largest := Load.busiest_largest.mp busiest
    exact .inr ⟨m,largest,records,Load.nextRate_largest largest tuning.target r.bucket.rate,r.observe_candidate tuning now largest⟩

-- Lists with the same busiest location give the same candidate and the same round.
theorem busiest_decides (samples : List Binary64) (aimed : target.Positive) (flows : rate.Positive) :
    (∀ others, Load.Restated samples others →
      Load.nextRate others target rate = Load.nextRate samples target rate ∧
      ∀ (r : Regulator) (tuning : Tuning) (now : Nanos),
        Alike (r.observe tuning now others) (r.observe tuning now samples)) ∧
    (∀ before x after, samples = before ++ x :: after → x.Positive → ∀ y : Binary64, y.IsFinite → x ≤ y →
      Load.nextRate (before ++ y :: after) target rate ≤ Load.nextRate samples target rate) ∧
    ∀ (r : Regulator) (tuning : Tuning) (now : Nanos), r.Reports tuning now samples := by
  refine ⟨?_,?_,?_⟩
  · intro others restated
    have same := restated.busiest_eq
    refine ⟨?_,fun _ _ _ => observe_alike same⟩
    rw [Load.nextRate_busiest,Load.nextRate_busiest,same]
  · rintro before x after rfl usable y finite raised
    exact Load.nextRate_raised aimed flows usable finite raised
  · intro r tuning now
    exact r.observe_reports tuning now samples

theorem busiest_decides_grown_location :
    (70 : Binary64).Positive ∧ (100 : Binary64).Positive ∧ (60 : Binary64).Positive ∧ (60 : Binary64) ≤ 80 ∧
      Load.nextRate [.nan,80,0] 70 100 ≤ Load.nextRate [.nan,60,0] 70 100 := by
  have aimed : (70 : Binary64).Positive := by decide +kernel
  have flows : (100 : Binary64).Positive := by decide +kernel
  have usable : (60 : Binary64).Positive := by decide +kernel
  have raised : (60 : Binary64) ≤ 80 := by decide +kernel
  have law := (busiest_decides [.nan,60,0] aimed flows).2.1 [.nan] 60 [0] rfl usable
  exact ⟨aimed,flows,usable,raised,law 80 (by decide +kernel) raised⟩

end Regulator
end LoadPacing
