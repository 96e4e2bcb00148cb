import LoadPacing.Proofs.Regulator.Rounds
import Mathlib.Algebra.GroupWithZero.Nat

-- What a control round adds to the counters, to the histogram of loads and to the gauge of the rate.
namespace LoadPacing

-- What a control round is run for: the readings of a response, or a missed deadline.
inductive Stimulus where
  | load (samples : List Binary64)
  | deadline
  deriving DecidableEq

namespace Stimulus

def samples : Stimulus → List Binary64
  | .load samples => samples
  | .deadline => [Load.overload]

def isDeadline : Stimulus → Bool
  | .load _ => false
  | .deadline => true

end Stimulus

namespace Metric

def Change.amount : Change → Nat
  | .increment amount => amount
  | .set _ | .record _ => 0

def Change.recorded : Change → Option Binary64
  | .record value => some value
  | .increment _ | .set _ => none

def Change.assigned : Change → Option Binary64
  | .set value => some value
  | .increment _ | .record _ => none

-- Where a counter stands after these metrics.
def total (name : String) (label : Option (String × String)) (metrics : List Metric) : Nat :=
  (metrics.map fun m => if m.name = name ∧ m.label = label then m.change.amount else 0).sum

def records (name : String) (metrics : List Metric) : List Binary64 :=
  metrics.filterMap fun m => if m.name = name then m.change.recorded else none

def settings (name : String) (metrics : List Metric) : List Binary64 :=
  metrics.filterMap fun m => if m.name = name then m.change.assigned else none

theorem total_append (name : String) (label : Option (String × String)) (first later : List Metric) :
    total name label (first ++ later) = total name label first + total name label later := by
  unfold total
  rw [List.map_append,List.sum_append]

theorem records_append (name : String) (first later : List Metric) :
    records name (first ++ later) = records name first ++ records name later := List.filterMap_append

theorem settings_append (name : String) (first later : List Metric) :
    settings name (first ++ later) = settings name first ++ settings name later := List.filterMap_append

end Metric

namespace Verdict

def isOutOfBounds : Verdict → Bool
  | .outOfBounds _ => true
  | .noSignal | .coolingDown _ _ | .applied _ _ => false

def isCoolingDown : Verdict → Bool
  | .coolingDown _ _ => true
  | .noSignal | .outOfBounds _ | .applied _ _ => false

def committed : Verdict → Option Binary64
  | .applied _ current => some current
  | .noSignal | .outOfBounds _ | .coolingDown _ _ => none

def metrics : Verdict → List Metric
  | .noSignal => []
  | .outOfBounds _ => [Notice.skipped "out_of_bounds"]
  | .coolingDown _ _ => [Notice.skipped "cooldown"]
  | .applied _ current =>
    [⟨"cpu_throttle_rate",none,.set current⟩,⟨"cpu_throttle_adjustments_total",none,.increment 1⟩]

end Verdict

-- A control round: the regulation that it found, and what it was run for.
structure Hearing where
  regulator : Regulator
  tuning : Tuning
  now : Nanos
  stimulus : Stimulus
  deriving DecidableEq

namespace Hearing

def outcome (h : Hearing) : Verdict × Regulator × List Notice :=
  match h.stimulus with
  | .load samples => h.regulator.observe h.tuning h.now samples
  | .deadline => h.regulator.observeDeadline h.tuning h.now

def verdict (h : Hearing) : Verdict := h.outcome.1

def busiest (h : Hearing) : Option Binary64 := Load.busiest h.stimulus.samples

def candidate (h : Hearing) : Binary64 :=
  Load.nextRate h.stimulus.samples h.tuning.target h.regulator.bucket.rate

def Overflows (h : Hearing) : Prop := h.busiest.isSome ∧ ¬ h.candidate.IsFinite

instance (h : Hearing) : Decidable h.Overflows := inferInstanceAs (Decidable (_ ∧ _))

def metrics (h : Hearing) : List Metric :=
  (if h.stimulus.isDeadline then [⟨"cpu_throttle_deadline_signals_total",none,.increment 1⟩] else []) ++
    h.busiest.toList.map (fun busiest => ⟨"cpu_throttle_observed_cpu",none,.record busiest⟩) ++ h.verdict.metrics

end Hearing

namespace Regulator

theorem settle_metrics (r : Regulator) (tuning : Tuning) (now : Nanos) (candidate : Binary64) :
    (r.settle tuning now candidate).2.2.flatMap Notice.metrics = (r.settle tuning now candidate).1.metrics ∧
    (r.settle tuning now candidate).1 ≠ .noSignal := by
  unfold settle
  rcases r.commit_cases candidate now tuning.cooldown with ⟨_,eq⟩ | ⟨_,_,_,eq⟩ | ⟨_,_,eq⟩ <;>
    (rw [eq]; exact ⟨rfl,nofun⟩)

theorem observe_metrics (r : Regulator) (tuning : Tuning) (now : Nanos) (samples : List Binary64) :
    (r.observe tuning now samples).2.2.flatMap Notice.metrics =
      (Load.busiest samples).toList.map (fun busiest => ⟨"cpu_throttle_observed_cpu",none,.record busiest⟩) ++
        (r.observe tuning now samples).1.metrics := by
  unfold observe
  cases Load.busiest samples with
  | none => rfl
  | some busiest =>
    dsimp only
    split
    · rw [List.flatMap_cons,(r.settle_metrics tuning now _).1]
      rfl
    · rfl

-- A round with a usable reading comes to something, unless its candidate is past the range.
theorem observe_silent (r : Regulator) (tuning : Tuning) (now : Nanos) (samples : List Binary64) :
    (r.observe tuning now samples).1 = .noSignal ↔
      ((Load.busiest samples).isSome → ¬ (Load.nextRate samples tuning.target r.bucket.rate).IsFinite) := by
  unfold observe
  cases Load.busiest samples with
  | none => simp
  | some busiest =>
    dsimp only
    split
    · rename_i finite
      simpa [finite] using (r.settle_metrics tuning now _).2
    · rename_i infinite
      simp [infinite]

end Regulator

namespace Hearing

theorem outcome_metrics (h : Hearing) : h.outcome.2.2.flatMap Notice.metrics = h.metrics := by
  unfold metrics verdict outcome busiest
  cases h.stimulus with
  | load samples => exact h.regulator.observe_metrics h.tuning h.now samples
  | deadline =>
    have observed := h.regulator.observe_metrics h.tuning h.now [Load.overload]
    unfold Regulator.observeDeadline
    rw [List.flatMap_cons,observed]
    rfl

theorem verdict_silent (h : Hearing) : h.verdict = .noSignal ↔ (h.busiest.isSome → ¬ h.candidate.IsFinite) := by
  unfold verdict outcome busiest candidate
  cases h.stimulus with
  | load samples => exact h.regulator.observe_silent h.tuning h.now samples
  | deadline => exact h.regulator.observe_silent h.tuning h.now [Load.overload]

theorem metrics_unusable (h : Hearing) (unusable : h.busiest = none) :
    h.metrics = if h.stimulus.isDeadline then [⟨"cpu_throttle_deadline_signals_total",none,.increment 1⟩] else [] := by
  have silent : h.verdict = .noSignal := h.verdict_silent.mpr (by simp [unusable])
  rw [metrics,unusable,silent]
  simp [Verdict.metrics]

structure Tallied (rounds : List Hearing) (metrics : List Metric) : Prop where
  adjustments : Metric.total "cpu_throttle_adjustments_total" none metrics =
    rounds.countP fun h => h.verdict.isApplied
  outOfBounds : Metric.total "cpu_throttle_adjustments_skipped_total" (some ("reason","out_of_bounds")) metrics =
    rounds.countP fun h => h.verdict.isOutOfBounds
  coolingDown : Metric.total "cpu_throttle_adjustments_skipped_total" (some ("reason","cooldown")) metrics =
    rounds.countP fun h => h.verdict.isCoolingDown
  deadlines : Metric.total "cpu_throttle_deadline_signals_total" none metrics =
    rounds.countP fun h => h.stimulus.isDeadline
  loads : Metric.records "cpu_throttle_observed_cpu" metrics = rounds.filterMap busiest
  rates : Metric.settings "cpu_throttle_rate" metrics = rounds.filterMap fun h => h.verdict.committed

theorem Tallied.append (one : Tallied first x) (two : Tallied later y) : Tallied (first ++ later) (x ++ y) := by
  refine ⟨?_,?_,?_,?_,?_,?_⟩
  · rw [Metric.total_append,List.countP_append,one.adjustments,two.adjustments]
  · rw [Metric.total_append,List.countP_append,one.outOfBounds,two.outOfBounds]
  · rw [Metric.total_append,List.countP_append,one.coolingDown,two.coolingDown]
  · rw [Metric.total_append,List.countP_append,one.deadlines,two.deadlines]
  · rw [Metric.records_append,List.filterMap_append,one.loads,two.loads]
  · rw [Metric.settings_append,List.filterMap_append,one.rates,two.rates]

theorem tallied_one (h : Hearing) : Tallied [h] h.metrics := by
  unfold metrics
  refine ⟨?_,?_,?_,?_,?_,?_⟩ <;>
    simp only [List.countP_singleton,List.filterMap_cons,List.filterMap_nil] <;>
    cases h.stimulus.isDeadline <;> cases h.busiest <;> cases h.verdict <;> rfl

theorem tallied (rounds : List Hearing) : Tallied rounds (rounds.flatMap metrics) := by
  induction rounds with
  | nil => exact ⟨rfl,rfl,rfl,rfl,rfl,rfl⟩
  | cons h rest ih => exact (tallied_one h).append ih

theorem loads_one (h : Hearing) :
    h.busiest.toList.length = (if h.verdict.isApplied then 1 else 0) + (if h.verdict.isOutOfBounds then 1 else 0) +
      (if h.verdict.isCoolingDown then 1 else 0) + if h.Overflows then 1 else 0 := by
  have silent := h.verdict_silent
  cases usable : h.busiest with
  | none =>
    have quiet : h.verdict = .noSignal := silent.mpr (by simp [usable])
    have inside : ¬ h.Overflows := by simp [Overflows,usable]
    rw [quiet,if_neg inside]
    rfl
  | some busiest =>
    rw [usable] at silent
    by_cases finite : h.candidate.IsFinite
    · have inside : ¬ h.Overflows := fun past => past.2 finite
      have heard : h.verdict ≠ .noSignal := fun quiet => silent.mp quiet rfl finite
      rw [if_neg inside]
      cases verdict : h.verdict with
      | noSignal => exact absurd verdict heard
      | outOfBounds | coolingDown | applied => rfl
    · have past : h.Overflows := ⟨by rw [usable]; rfl,finite⟩
      rw [silent.mpr fun _ => finite,if_pos past]
      rfl

theorem loads_counted (rounds : List Hearing) :
    (rounds.filterMap busiest).length = rounds.countP (fun h => h.verdict.isApplied) +
      rounds.countP (fun h => h.verdict.isOutOfBounds) + rounds.countP (fun h => h.verdict.isCoolingDown) +
      rounds.countP (fun h => h.Overflows) := by
  induction rounds with
  | nil => rfl
  | cons h rest ih =>
    have one := h.loads_one
    have split : ((h :: rest).filterMap busiest).length = h.busiest.toList.length + (rest.filterMap busiest).length := by
      cases usable : h.busiest with
      | none => simp [usable]
      | some busiest => simp [usable,Nat.add_comm]
    simp only [List.countP_cons,decide_eq_true_eq]
    omega

end Hearing
end LoadPacing
