import LoadPacing.Proofs.Binary64.Value
import LoadPacing.Proofs.Regulator.Rounds

-- What settings are asked for, told by the numbers that their doubles stand for.
namespace LoadPacing.Settings

inductive Requirement where
  | bounds | initialRate | target | burst
  deriving DecidableEq

namespace Requirement

-- In the order in which they are looked at.
def all : List Requirement := [.bounds,.initialRate,.target,.burst]

-- The bounds are numbers wherever the initial rate is compared with them.
def Met (s : Settings) : Requirement → Prop
  | bounds =>
    s.lowerBound.IsFinite ∧ s.upperBound.IsFinite ∧ 0 < s.lowerBound.value ∧
      s.lowerBound.value < s.upperBound.value
  | initialRate =>
    s.initialRate.IsFinite ∧ s.lowerBound.value ≤ s.initialRate.value ∧ s.initialRate.value ≤ s.upperBound.value
  | target => s.targetLoad.IsFinite ∧ 0 < s.targetLoad.value ∧ s.targetLoad.value ≤ 100
  | burst => s.maxBurst.IsFinite ∧ 0 ≤ s.maxBurst.value

instance (s : Settings) (r : Requirement) : Decidable (r.Met s) := by
  cases r <;> exact inferInstanceAs (Decidable (_ ∧ _))

def fault (s : Settings) : Requirement → Fault
  | bounds => .bounds s.lowerBound s.upperBound
  | initialRate => .initialRate s.initialRate s.lowerBound s.upperBound
  | target => .target s.targetLoad
  | burst => .burst s.maxBurst

end Requirement

def firstUnmet (s : Settings) : Option Requirement := Requirement.all.find? fun r => ¬ r.Met s

open Requirement Binary64
variable {s : Settings}

theorem bounds_checked :
    (¬ s.lowerBound.Positive ∨ ¬ s.upperBound.Positive ∨ s.upperBound ≤ s.lowerBound) ↔ ¬ bounds.Met s := by
  rw [positive_iff_value,positive_iff_value,Met]
  by_cases finite : s.lowerBound.IsFinite ∧ s.upperBound.IsFinite
  · obtain ⟨lower,upper⟩ := finite
    simp only [lower,upper,true_and,value_le upper lower]
    constructor
    · rintro (none | none | crossed) ⟨above,ordered⟩
      · exact none above
      · exact none (above.trans ordered)
      · exact absurd ordered (not_lt_of_ge crossed)
    · intro unmet
      by_cases above : 0 < s.lowerBound.value
      · exact .inr (.inr (not_lt.mp fun ordered => unmet ⟨above,ordered⟩))
      · exact .inl above
  · have unmet : ¬ (s.lowerBound.IsFinite ∧ s.upperBound.IsFinite ∧ 0 < s.lowerBound.value ∧
        s.lowerBound.value < s.upperBound.value) := fun met => finite ⟨met.1,met.2.1⟩
    simp only [unmet,not_false_eq_true,iff_true]
    rcases not_and_or.mp finite with infinite | infinite
    · exact .inl fun lower => infinite lower.1
    · exact .inr (.inl fun upper => infinite upper.1)

theorem initialRate_checked (met : bounds.Met s) :
    Within s.lowerBound s.upperBound s.initialRate ↔ Requirement.initialRate.Met s := by
  obtain ⟨lower,upper,_⟩ := met
  constructor
  · intro within
    have finite := finite_of_between lower upper within.1 within.2
    exact ⟨finite,(value_le lower finite).mp within.1,(value_le finite upper).mp within.2⟩
  · rintro ⟨finite,least,most⟩
    exact ⟨(value_le lower finite).mpr least,(value_le finite upper).mpr most⟩

theorem target_checked : (¬ s.targetLoad.Positive ∨ 100 < s.targetLoad) ↔ ¬ target.Met s := by
  have hundred : (100 : Binary64).Yields 100 := by decide +kernel
  rw [positive_iff_value,Met]
  by_cases finite : s.targetLoad.IsFinite
  · rw [value_lt hundred.1 finite,hundred.2]
    simp only [finite,true_and,not_and_or,not_le,not_lt]
  · simp [finite]

theorem burst_checked : (¬ s.maxBurst.IsFinite ∨ s.maxBurst < 0) ↔ ¬ burst.Met s := by
  rw [Met]
  by_cases finite : s.maxBurst.IsFinite
  · rw [value_lt finite zero_yields.1,zero_yields.2]
    simp [finite]
  · simp [finite]

theorem validate_first (s : Settings) :
    s.validate = match s.firstUnmet with
      | none => .ok ()
      | some unmet => .error (unmet.fault s) := by
  unfold validate firstUnmet all
  simp only [bounds_checked,target_checked,burst_checked]
  by_cases one : bounds.Met s
  · simp only [initialRate_checked one,one,not_true_eq_false,if_false]
    by_cases two : Requirement.initialRate.Met s
    · by_cases three : target.Met s
      · by_cases four : burst.Met s
        · simp [one,two,three,four]
        · simp [one,two,three,four,fault]
      · simp [one,two,three,fault]
    · simp [one,two,fault]
  · simp [one,fault]

theorem firstUnmet_none : s.firstUnmet = none ↔ ∀ r : Requirement, r.Met s := by
  unfold firstUnmet
  rw [List.find?_eq_none]
  constructor
  · intro met r
    have listed : r ∈ all := by cases r <;> decide
    simpa using met r listed
  · intro met r _
    simpa using met r

theorem validate_accepts : s.validate = .ok () ↔ ∀ r : Requirement, r.Met s := by
  rw [validate_first,← firstUnmet_none]
  cases s.firstUnmet with
  | none => exact iff_of_true rfl rfl
  | some unmet => exact iff_of_false nofun nofun

end LoadPacing.Settings
