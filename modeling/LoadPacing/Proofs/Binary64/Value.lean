import LoadPacing.Proofs.Binary64.Order
import LoadPacing.Time
import Mathlib.Algebra.Order.Field.Rat
import Mathlib.Tactic.FieldSimp
import Mathlib.Tactic.Linarith
import Mathlib.Tactic.NormNum
import Mathlib.Tactic.Positivity

-- Finite doubles as the rational numbers that they stand for.
namespace LoadPacing

namespace Binary64

def value : Binary64 → ℚ
  | .finite negative units _ => (signed negative units : ℚ) / perOne
  | .nan | .infinite _ => 0

-- The operation that gave the double did not round the number.
def Yields (x : Binary64) (q : ℚ) : Prop := x.IsFinite ∧ x.value = q

instance (x : Binary64) (q : ℚ) : Decidable (x.Yields q) := inferInstanceAs (Decidable (_ ∧ _))

variable {x y : Binary64}

theorem perOne_value : (0 : ℚ) < perOne := Nat.cast_pos.mpr perOne_pos

theorem perOne_pow : perOne = 2 ^ 1074 := by
  unfold perOne
  generalize 1074 = k
  rfl

theorem limit_pow : limit = 2 ^ 2098 := by
  unfold limit
  generalize 2098 = k
  rfl

theorem place_value (finite : x.IsFinite) : ∃ a, x.place = some a ∧ x.value = (a : ℚ) / perOne := by
  cases x with
  | nan => cases finite
  | infinite negative => cases finite
  | finite negative units onGrid => exact ⟨_,rfl,rfl⟩

theorem value_le (xFinite : x.IsFinite) (yFinite : y.IsFinite) : x ≤ y ↔ x.value ≤ y.value := by
  obtain ⟨a,hx,vx⟩ := place_value xFinite
  obtain ⟨b,hy,vy⟩ := place_value yFinite
  rw [le_iff_place,vx,vy,div_le_div_iff_of_pos_right perOne_value,Int.cast_le]
  constructor
  · rintro ⟨a',b',hx',hy',most⟩
    rw [hx] at hx'
    rw [hy] at hy'
    cases hx'
    cases hy'
    exact most
  · intro most
    exact ⟨a,b,hx,hy,most⟩

theorem value_lt (xFinite : x.IsFinite) (yFinite : y.IsFinite) : x < y ↔ x.value < y.value := by
  constructor
  · intro less
    exact lt_of_not_ge fun most => not_le_of_lt less ((value_le yFinite xFinite).mpr most)
  · intro less
    by_contra notLess
    have most := le_of_not_lt (finite_ne_nan yFinite) (finite_ne_nan xFinite) notLess
    exact absurd ((value_le yFinite xFinite).mp most) (not_le_of_gt less)

theorem one_yields : (1 : Binary64).Yields 1 := by decide +kernel

theorem zero_yields : (0 : Binary64).Yields 0 := by
  rw [zero_form]
  exact ⟨trivial,by simp [zero,value,signed]⟩

theorem below_one (finite : x.IsFinite) : ¬ 1 ≤ x ↔ x.value < 1 := by
  rw [value_le one_yields.1 finite,one_yields.2]
  exact not_le

theorem positive_value (positive : x.Positive) : 0 < x.value := by
  have above := mt (value_le positive.1 zero_yields.1).mpr (not_le_of_lt positive.2)
  rw [zero_yields.2] at above
  exact lt_of_not_ge above

theorem positive_of_value (finite : x.IsFinite) (above : 0 < x.value) : x.Positive := by
  refine ⟨finite,(value_lt zero_yields.1 finite).mpr ?_⟩
  rwa [zero_yields.2]

theorem positive_iff_value : x.Positive ↔ x.IsFinite ∧ 0 < x.value :=
  ⟨fun positive => ⟨positive.1,positive_value positive⟩,fun above => positive_of_value above.1 above.2⟩

theorem one_positive : (1 : Binary64).Positive := positive_of_value one_yields.1 (by simp [one_yields.2])

theorem zero_below_one : (0 : Binary64) ≤ 1 := le_of_lt one_positive.2

theorem min_value (finite : x.IsFinite) (least : 1 ≤ y) : (min x y).IsFinite ∧ (min x y).value ≤ x.value := by
  show (smaller x y).IsFinite ∧ (smaller x y).value ≤ x.value
  unfold smaller
  rw [if_neg (finite_ne_nan finite)]
  split
  · exact ⟨finite,le_refl _⟩
  · split
    · rename_i less
      have below := le_of_lt less
      have yFinite := finite_of_between one_yields.1 finite least below
      exact ⟨yFinite,(value_le yFinite finite).mp below⟩
    · exact ⟨finite,le_refl _⟩

theorem value_min (xFinite : x.IsFinite) (yFinite : y.IsFinite) :
    (min x y).IsFinite ∧ (min x y).value = min x.value y.value := by
  show (smaller x y).IsFinite ∧ (smaller x y).value = _
  unfold smaller
  rw [if_neg (finite_ne_nan xFinite),if_neg (finite_ne_nan yFinite)]
  split
  · rename_i less
    have most := (value_le yFinite xFinite).mp (le_of_lt less)
    exact ⟨yFinite,(min_eq_right most).symm⟩
  · rename_i notLess
    have most := le_of_not_lt (finite_ne_nan xFinite) (finite_ne_nan yFinite) notLess
    exact ⟨xFinite,(min_eq_left ((value_le xFinite yFinite).mp most)).symm⟩

theorem value_max (xFinite : x.IsFinite) (yFinite : y.IsFinite) :
    (max x y).IsFinite ∧ (max x y).value = max x.value y.value := by
  show (larger x y).IsFinite ∧ (larger x y).value = _
  unfold larger
  rw [if_neg (finite_ne_nan xFinite),if_neg (finite_ne_nan yFinite)]
  split
  · rename_i less
    have most := (value_le xFinite yFinite).mp (le_of_lt less)
    exact ⟨yFinite,(max_eq_right most).symm⟩
  · rename_i notLess
    have most := le_of_not_lt (finite_ne_nan yFinite) (finite_ne_nan xFinite) notLess
    exact ⟨xFinite,(max_eq_left ((value_le yFinite xFinite).mp most)).symm⟩

theorem one_le_max (x : Binary64) : 1 ≤ max x 1 := by
  have number := finite_ne_nan one_yields.1
  have one : (1 : Binary64) ≤ 1 := le_number number
  show 1 ≤ larger x 1
  unfold larger
  rw [if_neg number]
  split
  · exact one
  · rename_i xNumber
    split
    · exact one
    · rename_i above
      exact le_of_not_lt number xNumber above

theorem roundQuotient_half (num : Nat) {den : Nat} (some : 0 < den) :
    2 * num ≤ (2 * roundQuotient num den + 1) * den := by
  have parts := Nat.div_add_mod num den
  have rest := Nat.mod_lt num some
  unfold roundQuotient
  split
  · nlinarith
  · split
    · nlinarith
    · nlinarith [Nat.zero_le (num / den % 2 * den)]

end Binary64

theorem Nanos.ofSeconds_value {x : Binary64} {wait : Nanos} (finite : x.IsFinite)
    (converted : Nanos.ofSeconds x = .ok wait) : x.value * 10 ^ 9 ≤ wait + 1 / 2 := by
  cases x with
  | nan => cases finite
  | infinite negative => cases finite
  | finite negative units onGrid =>
    unfold Nanos.ofSeconds at converted
    dsimp only at converted
    split at converted
    · cases converted
    rename_i sign
    split at converted
    · cases converted
      have half := Binary64.roundQuotient_half (units * perSecond) Binary64.perOne_pos
      generalize Binary64.roundQuotient (units * perSecond) Binary64.perOne = rounded at half ⊢
      have same : Binary64.signed negative units = units := by
        cases negative with
        | false => rfl
        | true =>
          have none : units = 0 := by
            apply Decidable.not_not.mp
            intro some
            exact sign ⟨rfl,some⟩
          rw [none]
          rfl
      have exact : 2 * ((units : ℚ) * 10 ^ 9) ≤ (2 * rounded + 1) * Binary64.perOne := by
        exact_mod_cast half
      have one := Binary64.perOne_value
      rw [Binary64.value,same,Int.cast_natCast,div_mul_eq_mul_div,div_le_iff₀ one]
      linarith
    · cases converted

end LoadPacing
