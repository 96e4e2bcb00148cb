import LoadPacing.Proofs.Load.Busiest

-- The rate falls while the busiest location is above the target and grows while it is below.
namespace LoadPacing.Load
open Binary64 (justBelow justAbove)

variable {before after : List Binary64} {m n x y target rate : Binary64}

section Sides
variable (usable : m.Positive) (aimed : target.Positive) (flows : rate.Positive)

include aimed flows in
theorem law_same : rate * (target / target) = rate := by
  have unit := Binary64.div_self_yields aimed
  have product := Binary64.mul_rounds flows.1 unit.1
  rw [unit.2,mul_one] at product
  have exact := product.exact ⟨flows.1,rfl⟩
  exact (Binary64.eq_of_value flows.1 exact.1 (Binary64.positive_value flows).ne' exact.2.symm).symm

include usable aimed flows

theorem law_nonneg : 0 ≤ rate * (target / m) := by
  rw [Binary64.mul_swap]
  exact Binary64.mul_nonneg (Binary64.zero_le_div aimed usable) flows

theorem law_overloaded (above : target < m) : rate * (target / m) ≤ rate * justBelow := by
  have quotient := Binary64.zero_le_div aimed usable
  exact Binary64.mul_le_mul_left quotient (Binary64.div_le_justBelow aimed usable above) flows

theorem law_underloaded (below : m < target) : rate * justAbove ≤ rate * (target / m) := by
  have factor : 0 ≤ justAbove := Binary64.le_trans Binary64.zero_below_one Binary64.one_le_justAbove
  exact Binary64.mul_le_mul_left factor (Binary64.justAbove_le_div aimed usable below) flows

end Sides

section Steps
variable (flows : rate.Positive)
include flows

theorem shrunk_le : rate * justBelow ≤ rate := by
  have most := Binary64.mul_le_mul_left Binary64.zero_le_justBelow Binary64.justBelow_le_one flows
  rwa [Binary64.mul_unit flows] at most

theorem le_grown : rate ≤ rate * justAbove := by
  have least := Binary64.mul_le_mul_left Binary64.zero_below_one Binary64.one_le_justAbove flows
  rwa [Binary64.mul_unit flows] at least

end Steps

theorem law_le (usable : m.Positive) (aimed : target.Positive) (flows : rate.Positive) (most : target ≤ m) :
    rate * (target / m) ≤ rate := by
  by_cases above : target < m
  · exact Binary64.le_trans (law_overloaded usable aimed flows above) (shrunk_le flows)
  · have least := Binary64.le_of_not_lt (Binary64.finite_ne_nan usable.1) (Binary64.finite_ne_nan aimed.1) above
    rw [Binary64.le_antisymm_positive aimed usable most least,law_same usable flows]
    exact Binary64.le_refl_finite flows.1

theorem law_antitone (aimed : target.Positive) (flows : rate.Positive) (one : m.Positive) (two : n.Positive)
    (most : m ≤ n) : rate * (target / n) ≤ rate * (target / m) := by
  have quotients : target / n ≤ target / m := by
    refine (Binary64.div_positive_rounds aimed two).le (Binary64.div_positive_rounds aimed one) ?_
    have values := (Binary64.value_le one.1 two.1).mp most
    exact div_le_div_of_nonneg_left (Binary64.positive_value aimed).le (Binary64.positive_value one) values
  exact Binary64.mul_le_mul_left (Binary64.zero_le_div aimed two) quotients flows

theorem nextRate_raised (aimed : target.Positive) (flows : rate.Positive) (usable : x.Positive) (finite : y.IsFinite)
    (raised : x ≤ y) : nextRate (before ++ y :: after) target rate ≤ nextRate (before ++ x :: after) target rate := by
  have grown : y.Positive := ⟨finite,Binary64.lt_of_lt_of_le usable.2 raised⟩
  have first : x ∈ before ++ x :: after := by simp
  have second : y ∈ before ++ y :: after := by simp
  obtain ⟨m,one⟩ := busiest_exists first usable
  obtain ⟨n,two⟩ := busiest_exists second grown
  rw [nextRate_largest one,nextRate_largest two]
  exact law_antitone aimed flows one.usable two.usable (largest_raised one two usable finite raised)

-- The smallest rates are too coarse for every change.
structure Directed (m target rate candidate : Binary64) : Prop where
  number : candidate ≠ .nan
  least : 0 ≤ candidate
  atTarget : m = target → candidate = rate
  overloaded : target < m → candidate ≤ rate
  underloaded : m < target → rate ≤ candidate
  shrinks : 1 / 2 ^ 1021 ≤ rate.value → target < m → candidate < rate
  grows : 1 / 2 ^ 1021 ≤ rate.value → m < target → rate < candidate

theorem directed (usable : m.Positive) (aimed : target.Positive) (flows : rate.Positive) :
    Directed m target rate (rate * (target / m)) where
  number := by
    intro nan
    have some := law_nonneg usable aimed flows
    rw [nan] at some
    exact (Binary64.number_of_le some).2 rfl
  least := law_nonneg usable aimed flows
  atTarget := by
    rintro rfl
    exact law_same aimed flows
  overloaded above := law_le usable aimed flows (Binary64.le_of_lt above)
  underloaded below := Binary64.le_trans (le_grown flows) (law_underloaded usable aimed flows below)
  shrinks normal above :=
    Binary64.lt_of_le_of_lt (law_overloaded usable aimed flows above) (Binary64.mul_justBelow_lt flows normal)
  grows normal below :=
    Binary64.lt_of_lt_of_le (Binary64.lt_mul_justAbove flows normal) (law_underloaded usable aimed flows below)

-- The side of the target that the largest usable reading is on says which way the rate may go.
theorem nextRate_directed (samples : List Binary64) (aimed : target.Positive) (flows : rate.Positive) :
    ((∃ x ∈ samples, x.Positive) → ∃ m, Largest samples m) ∧
    (∀ m, Largest samples m → Directed m target rate (nextRate samples target rate)) ∧
    ((∀ x ∈ samples, ¬ x.Positive) → nextRate samples target rate = rate) := by
  refine ⟨?_,?_,?_⟩
  · rintro ⟨x,member,positive⟩
    exact busiest_exists member positive
  · intro m largest
    rw [nextRate_largest largest]
    exact directed largest.usable aimed flows
  · intro unusable
    rw [nextRate_busiest,busiest_none.mpr unusable]

theorem nextRate_directed_next_double :
    (1 : Binary64).Positive ∧ Largest [.nan,justAbove,1] justAbove ∧ nextRate [.nan,justAbove,1] 1 1 < 1 := by
  have unit : (1 : Binary64).Positive := by decide +kernel
  obtain ⟨_,law,_⟩ := nextRate_directed [.nan,justAbove,1] unit unit
  have largest : Largest [.nan,justAbove,1] justAbove := busiest_largest.mp (by decide +kernel)
  have normal : (1 : ℚ) / 2 ^ 1021 ≤ (1 : Binary64).value := by
    rw [Binary64.one_yields.2]
    exact div_le_one_of_le₀ (one_le_pow₀ (by norm_num)) (by positivity)
  exact ⟨unit,largest,(law justAbove largest).shrinks normal (by decide +kernel)⟩

end LoadPacing.Load
