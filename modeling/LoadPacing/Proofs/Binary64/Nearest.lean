import LoadPacing.Proofs.Binary64.Value
import Mathlib.Algebra.Order.Floor.Semifield
import Mathlib.Data.Rat.Floor

-- Seconds are converted to the nearest whole number of nanoseconds.
namespace LoadPacing

-- A half goes to the even neighbour.
def nearestEven (q : ℚ) : Nat :=
  if q - ⌊q⌋₊ < 1 / 2 then ⌊q⌋₊
  else if 1 / 2 < q - ⌊q⌋₊ then ⌊q⌋₊ + 1
  else ⌊q⌋₊ + ⌊q⌋₊ % 2

theorem nearestEven_near {q : ℚ} (positive : 0 ≤ q) :
    q - 1 / 2 ≤ nearestEven q ∧ (nearestEven q : ℚ) ≤ q + 1 / 2 := by
  have low := Nat.floor_le positive
  have high := Nat.lt_floor_add_one q
  unfold nearestEven
  split
  · rename_i below
    exact ⟨by linarith,by linarith⟩
  · rename_i notBelow
    split
    · rename_i above
      push_cast
      exact ⟨by linarith,by linarith⟩
    · rename_i notAbove
      have parity : ⌊q⌋₊ % 2 = 0 ∨ ⌊q⌋₊ % 2 = 1 := Nat.mod_two_eq_zero_or_one _
      rcases parity with even | odd
      · rw [even]
        push_cast
        exact ⟨by linarith,by linarith⟩
      · rw [odd]
        push_cast
        exact ⟨by linarith,by linarith⟩

theorem Binary64.roundQuotient_nearest (num : Nat) {den : Nat} (some : 0 < den) :
    roundQuotient num den = nearestEven ((num : ℚ) / den) := by
  have positive : (0 : ℚ) < den := Nat.cast_pos.mpr some
  have whole : ⌊(num : ℚ) / den⌋₊ = num / den := Nat.floor_div_eq_div num den
  have rest : (num : ℚ) / den - (num / den : Nat) = (num % den : Nat) / den := by
    have parts : (den : ℚ) * (num / den : Nat) + (num % den : Nat) = num := by
      exact_mod_cast Nat.div_add_mod num den
    rw [← parts]
    field_simp
    ring
  have below : ((num % den : Nat) : ℚ) / den < 1 / 2 ↔ 2 * (num % den) < den := by
    rw [div_lt_div_iff₀ positive two_pos,one_mul,mul_comm]
    exact_mod_cast Iff.rfl
  have above : (1 / 2 : ℚ) < (num % den : Nat) / den ↔ den < 2 * (num % den) := by
    rw [div_lt_div_iff₀ two_pos positive,one_mul,mul_comm]
    exact_mod_cast Iff.rfl
  unfold roundQuotient nearestEven
  rw [whole,rest]
  simp only [below,above]

theorem Nanos.ofSeconds_nearest {x : Binary64} (finite : x.IsFinite) (positive : 0 ≤ x.value) :
    Nanos.ofSeconds x =
      if nearestEven (x.value * 10 ^ 9) < secondsLimit * perSecond then .ok (nearestEven (x.value * 10 ^ 9))
      else .error .tooLargeOrNaN := by
  cases x with
  | nan => cases finite
  | infinite negative => cases finite
  | finite negative units onGrid =>
    have one := Binary64.perOne_value
    have sign : ¬ (negative = true ∧ units ≠ 0) := by
      rintro ⟨rfl,some⟩
      have above : (0 : ℚ) < units := Nat.cast_pos.mpr (Nat.pos_of_ne_zero some)
      have below : (Binary64.finite true units onGrid).value < 0 := by
        simp only [Binary64.value,Binary64.signed,if_true]
        push_cast
        exact div_neg_of_neg_of_pos (neg_lt_zero.mpr above) one
      exact absurd positive (not_le_of_gt below)
    have same : Binary64.signed negative units = units := by
      cases negative with
      | false => rfl
      | true =>
        have none : units = 0 := by
          apply Decidable.not_not.mp
          intro some
          exact sign ⟨rfl,some⟩
        rw [none]
        rfl
    have nanos : (Binary64.finite negative units onGrid).value * 10 ^ 9 =
        ((units * perSecond : Nat) : ℚ) / Binary64.perOne := by
      have second : ((perSecond : Nat) : ℚ) = 10 ^ 9 := by norm_num [perSecond]
      simp only [Binary64.value,same]
      push_cast
      rw [second,div_mul_eq_mul_div]
    unfold Nanos.ofSeconds
    dsimp only
    rw [if_neg sign,nanos,Binary64.roundQuotient_nearest _ Binary64.perOne_pos]

theorem Nanos.finite_of_seconds {x : Binary64} {wait : Nanos} (converted : Nanos.ofSeconds x = .ok wait) : x.IsFinite := by
  cases x with
  | nan | infinite => cases converted
  | finite negative units onGrid => trivial

theorem Nanos.ofSeconds_near {x : Binary64} {wait : Nanos} (finite : x.IsFinite) (positive : 0 ≤ x.value)
    (converted : Nanos.ofSeconds x = .ok wait) : x.value * 10 ^ 9 - 1 / 2 ≤ wait ∧ wait ≤ x.value * 10 ^ 9 + 1 / 2 := by
  rw [Nanos.ofSeconds_nearest finite positive] at converted
  split at converted
  · cases converted
    exact nearestEven_near (by positivity)
  · cases converted

theorem Nanos.after_seconds {x : Binary64} (finite : x.IsFinite) (positive : 0 ≤ x.value) (now : Nanos) :
    (match Nanos.ofSeconds x with
      | .ok wait => Nanos.after now wait
      | .error _ => none) = Nanos.after now (nearestEven (x.value * 10 ^ 9)) := by
  rw [Nanos.ofSeconds_nearest finite positive]
  split
  · rename_i converted
    split at converted
    · cases converted
      rfl
    · cases converted
  · rename_i failed
    split at failed
    · cases failed
    · rename_i beyond
      have farther : horizon ≤ secondsLimit * perSecond := by decide
      have past : ¬ now + nearestEven (x.value * 10 ^ 9) < horizon := by lia
      exact (if_neg past).symm

end LoadPacing
