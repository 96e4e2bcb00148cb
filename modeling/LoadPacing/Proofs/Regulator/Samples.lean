import LoadPacing.Proofs.Regulator.Cuts

-- What is taken from a response: usable readings capped at a full load, and a log entry for each other one.
namespace LoadPacing

namespace Load
variable {readings : List Reading} {samples : List Binary64} {reading : Reading}

theorem usable_positive (positive : reading.percent.Positive) : usable reading = some (min reading.percent 100) :=
  if_pos positive

theorem usable_none (useless : ¬ reading.percent.Positive) : usable reading = none := if_neg useless

theorem sample_kept (readings : List Reading) :
    sample readings = (readings.filter fun reading => reading.percent.Positive).map fun reading => min reading.percent 100 := by
  induction readings with
  | nil => rfl
  | cons reading readings ih =>
    unfold sample at ih ⊢
    by_cases positive : reading.percent.Positive
    · simp [usable_positive,positive,ih]
    · simp [usable_none,positive,ih]

theorem sample_append (front back : List Reading) : sample (front ++ back) = sample front ++ sample back :=
  List.filterMap_append

theorem sample_count (readings : List Reading) : (sample readings).length + (dropped readings).length = readings.length := by
  have parts := List.length_eq_length_filter_add (l := readings) fun reading => decide reading.percent.Positive
  unfold dropped
  rw [sample_kept,List.length_map,parts]
  simp only [decide_not]

theorem usable_own (capped : Capped reading.percent) : usable reading = some reading.percent := by
  rw [usable_positive capped.1,Binary64.min_of_le capped.2]

theorem sample_own (capped : ∀ reading ∈ readings, Capped reading.percent) :
    sample readings = readings.map Reading.percent ∧ dropped readings = [] := by
  constructor
  · induction readings with
    | nil => rfl
    | cons reading readings ih =>
      obtain ⟨first,later⟩ := List.forall_mem_cons.mp capped
      have rest := ih later
      unfold sample at rest ⊢
      simp [usable_own first,rest]
  · unfold dropped
    simp only [List.filter_eq_nil_iff,decide_not,Bool.not_eq_true',decide_eq_false_iff_not,Decidable.not_not]
    exact fun reading member => (capped reading member).1

def peak : List Binary64 → Option Binary64
  | [] => none
  | first :: rest => some (rest.foldl max first)

theorem busiest_peak (usable : ∀ x ∈ samples, x.Positive) : busiest samples = peak samples := by
  have all : samples.filter (fun percent => percent.Positive) = samples := by simpa using usable
  unfold busiest
  rw [all]
  rfl

end Load

namespace Notice

def discarded : Notice → Option Reading
  | .readingDropped reading => some reading
  | _ => none

def load : Notice → Option (Binary64 × Nat)
  | .loadObserved busiest locations => some (busiest,locations)
  | _ => none

end Notice

namespace Regulator

theorem settle_tells (r : Regulator) (tuning : Tuning) (now : Nanos) (candidate : Binary64) :
    (r.settle tuning now candidate).2.2.filterMap Notice.discarded = [] ∧
      (r.settle tuning now candidate).2.2.filterMap Notice.load = [] := by
  unfold settle
  rcases r.commit_cases candidate now tuning.cooldown with ⟨_,eq⟩ | ⟨_,_,_,eq⟩ | ⟨_,_,eq⟩ <;> rw [eq] <;> exact ⟨rfl,rfl⟩

theorem observe_tells (r : Regulator) (tuning : Tuning) (now : Nanos) (samples : List Binary64) :
    (r.observe tuning now samples).2.2.filterMap Notice.discarded = [] ∧
      (r.observe tuning now samples).2.2.filterMap Notice.load =
        (Load.busiest samples).toList.map fun busiest => (busiest,samples.length) := by
  unfold observe
  cases Load.busiest samples with
  | none => exact ⟨rfl,rfl⟩
  | some busiest =>
    dsimp only
    split
    · obtain ⟨silent,unloaded⟩ := r.settle_tells tuning now (Load.nextRate samples tuning.target r.bucket.rate)
      constructor
      · exact silent
      · exact congrArg ((busiest,samples.length) :: ·) unloaded
    · exact ⟨rfl,rfl⟩

theorem dropped_tells (readings : List Reading) :
    (Notice.ofDropped readings).filterMap Notice.discarded = Load.dropped readings ∧
      (Notice.ofDropped readings).filterMap Notice.load = [] := by
  unfold Notice.ofDropped
  simp [List.filterMap_map,Function.comp_def,Notice.discarded,Notice.load]

structure Accounts (readings : List Reading) (notices : List Notice) : Prop where
  discarded : notices.filterMap Notice.discarded = readings.filter fun reading => ¬ reading.percent.Positive
  load : notices.filterMap Notice.load =
    (Load.peak (Load.sample readings)).toList.map fun peak => (peak,(Load.sample readings).length)

theorem sample_usable (readings : List Reading) : ∀ x ∈ Load.sample readings, x.Positive :=
  fun _ member => (Load.sample_capped member).1

theorem receive_accounts (r : Regulator) (tuning : Tuning) (now : Nanos) (report : Report) :
    Accounts report.readings (r.receive tuning now (.response report)).2.2 := by
  obtain ⟨silent,observed⟩ := r.observe_tells tuning now (Load.sample report.readings)
  obtain ⟨told,unloaded⟩ := dropped_tells report.readings
  rw [Load.busiest_peak (sample_usable _)] at observed
  constructor
  · simp only [receive,List.filterMap_append,silent,told,List.append_nil]
    rfl
  · simp only [receive,List.filterMap_append,observed,unloaded,List.nil_append]

-- A sample taken again stays what it is, and no round passes over any part of it.
theorem sample_exact (report : Report) :
    let readings := report.readings
    let samples := Load.sample readings
    samples = (readings.filter fun reading => reading.percent.IsFinite ∧ 0 < reading.percent).map
      (fun reading => min reading.percent 100) ∧
    (∀ x ∈ samples, x.IsFinite ∧ 0 < x ∧ x ≤ 100) ∧
    (∀ others, Load.sample (readings ++ others) = samples ++ Load.sample others) ∧
    (∀ again : List Reading, again.map Reading.percent = samples → Load.sample again = samples ∧ Notice.ofDropped again = []) ∧
    (Notice.ofDropped readings).map Notice.entry =
      (readings.filter fun reading => ¬ (reading.percent.IsFinite ∧ 0 < reading.percent)).map (fun reading =>
        ⟨.trace,"cpu_throttle::stats","Dropping unusable CPU reading.",
          [("location",.text reading.location),("cpu_percent",.number reading.percent)]⟩) ∧
    samples.length + (Notice.ofDropped readings).length = readings.length ∧
    Load.busiest samples = Load.peak samples ∧
    (∀ target rate, Load.nextRate samples target rate =
      match Load.peak samples with
      | none => rate
      | some peak => rate * (target / peak)) ∧
    ∀ (r : Regulator) (tuning : Tuning) (now : Nanos),
      Accounts readings (r.receive tuning now (.response report)).2.2 := by
  intro readings samples
  have whole := Load.busiest_peak (sample_usable readings)
  refine ⟨Load.sample_kept readings,?_,Load.sample_append readings,?_,?_,?_,whole,?_,?_⟩
  · intro x member
    obtain ⟨positive,most⟩ := Load.sample_capped member
    exact ⟨positive.1,positive.2,most⟩
  · intro again same
    have capped : ∀ reading ∈ again, Load.Capped reading.percent := by
      intro reading member
      have among : reading.percent ∈ samples := same ▸ List.mem_map_of_mem member
      exact Load.sample_capped among
    obtain ⟨own,none⟩ := Load.sample_own capped
    exact ⟨own.trans same,by simp [Notice.ofDropped,none]⟩
  · unfold Notice.ofDropped
    rw [List.map_map]
    rfl
  · unfold Notice.ofDropped
    rw [List.length_map]
    exact Load.sample_count readings
  · intro target rate
    have law := Load.nextRate_busiest samples target rate
    rw [whole] at law
    exact law
  · exact fun r tuning now => r.receive_accounts tuning now report

theorem sample_exact_two_of_five :
    let report : Report := some [⟨"a",.nan⟩,⟨"b",-3⟩,⟨"c",250⟩,⟨"d",0⟩,⟨"e",1 / 2⟩]
    let again : List Reading := [⟨"c",100⟩,⟨"e",1 / 2⟩]
    Load.sample report.readings = [100,1 / 2] ∧ again.map Reading.percent = Load.sample report.readings ∧
      Load.sample again = [100,1 / 2] ∧ (Notice.ofDropped report.readings).length = 3 := by
  intro report again
  have taken : Load.sample report.readings = [100,1 / 2] := by decide +kernel
  have same : again.map Reading.percent = Load.sample report.readings := by rw [taken]; rfl
  obtain ⟨_,_,_,retaken,_,count,_⟩ := sample_exact report
  have total : 2 + (Notice.ofDropped report.readings).length = 5 := by
    rw [taken] at count
    exact count
  exact ⟨taken,same,(retaken again same).1.trans taken,Nat.add_left_cancel total⟩

end Regulator
end LoadPacing
