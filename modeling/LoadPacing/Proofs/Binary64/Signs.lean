import LoadPacing.Proofs.Binary64.Monotone

-- Adding zero changes a negative zero alone, and no sum with a positive term is one.
namespace LoadPacing.Binary64

variable {x y c : Binary64}

def sign : Binary64 → Bool
  | nan => false
  | infinite negative | finite negative _ _ => negative

theorem rounded_sign (negative : Bool) (num den : Nat) : (rounded negative num den).sign = negative := by
  unfold rounded
  split <;> rfl

theorem ofNat_sign (n : Nat) : (ofNat n).sign = false := rounded_sign _ _ _

theorem positive_sign (positive : x.Positive) : x.sign = false := by
  obtain ⟨units,onGrid,rfl,_⟩ := positive_form positive
  rfl

section Operations
variable (one : x.sign = false) (two : y.sign = false)
include one two

theorem mul_sign : (x * y).sign = false := by
  show (mul x y).sign = false
  cases x with
  | nan => rfl
  | infinite a =>
    cases one
    cases y with
    | nan => rfl
    | infinite b => cases two; rfl
    | finite b n nGrid => cases two; dsimp only [mul]; split <;> rfl
  | finite a m mGrid =>
    cases one
    cases y with
    | nan => rfl
    | infinite b => cases two; dsimp only [mul]; split <;> rfl
    | finite b n nGrid => cases two; exact rounded_sign _ _ _

theorem div_sign : (x / y).sign = false := by
  show (div x y).sign = false
  cases x with
  | nan => rfl
  | infinite a =>
    cases one
    cases y with
    | nan | infinite => rfl
    | finite b n nGrid => cases two; rfl
  | finite a m mGrid =>
    cases one
    cases y with
    | nan => rfl
    | infinite b => cases two; rfl
    | finite b n nGrid =>
      cases two
      dsimp only [div]
      split
      · split <;> rfl
      · exact rounded_sign _ _ _

theorem add_sign : (x + y).sign = false := by
  show (add x y).sign = false
  cases x with
  | nan => rfl
  | infinite a =>
    cases one
    cases y with
    | nan | finite => rfl
    | infinite b => cases two; rfl
  | finite a m mGrid =>
    cases one
    cases y with
    | nan => rfl
    | infinite b => cases two; rfl
    | finite b n nGrid =>
      cases two
      have least : ¬ signed false m + signed false n < 0 := Int.not_lt.mpr (Int.natCast_nonneg (m + n))
      dsimp only [add]
      split
      · rfl
      · rw [rounded_sign]
        exact decide_eq_false least

end Operations

theorem toSeconds_sign (d : Nanos) : (Nanos.toSeconds d).sign = false :=
  add_sign (ofNat_sign _) (div_sign (ofNat_sign _) (ofNat_sign _))

theorem add_zero_plain (plain : x ≠ zero true) : x + 0 = x := by
  cases x with
  | nan => rfl
  | infinite negative => rw [zero_form]; rfl
  | finite negative units onGrid =>
    by_cases some : units = 0
    · subst some
      cases negative with
      | true => exact absurd rfl plain
      | false =>
        rw [zero_form]
        rfl
    · refine add_zero_exact trivial ?_
      have one := perOne_value.ne'
      cases negative <;> simp [value,signed,some,one]

-- Whole units round to no fewer than one.
theorem rounded_ne_zero {num : Nat} (some : 0 < num) (negative : Bool) : rounded negative num 1 ≠ zero true := by
  have least : 1 ≤ nearest num 1 := by
    rw [nearest_gridPoint num Nat.zero_lt_one]
    refine le_gridPoint (one_dvd _) ?_
    rw [Nat.cast_one,div_one]
    exact_mod_cast some
  unfold rounded
  split
  · intro none
    have units : nearest num 1 = 0 := by
      injection none
    exact Nat.ne_of_gt least units
  · intro none
    cases none

theorem add_ne_negative_zero (x : Binary64) (two : y.sign = false) : x + y ≠ zero true := by
  show add x y ≠ zero true
  cases x with
  | nan => nofun
  | infinite a =>
    cases y with
    | nan | finite => nofun
    | infinite b => dsimp only [add]; split <;> nofun
  | finite a m mGrid =>
    cases y with
    | nan | infinite => nofun
    | finite b n nGrid =>
      cases two
      dsimp only [add]
      split
      · rw [Bool.and_false]
        nofun
      · rename_i some
        exact rounded_ne_zero (Int.natAbs_pos.mpr some) _

theorem sub_one_plain (x : Binary64) : x - 1 + 0 = x - 1 := by
  refine add_zero_plain ?_
  obtain ⟨units,onGrid,one,some⟩ := positive_form one_positive
  rw [one]
  show add x (.finite true units onGrid) ≠ zero true
  cases x with
  | nan | infinite => nofun
  | finite a m mGrid =>
    dsimp only [add]
    split
    · rename_i none
      cases a with
      | false => nofun
      | true =>
        simp only [signed,if_true] at none
        omega
    · rename_i other
      exact rounded_ne_zero (Int.natAbs_pos.mpr other) _

theorem min_self (x : Binary64) : min x x = x := by
  show smaller x x = x
  unfold smaller
  split
  · rfl
  · split <;> rfl

theorem min_cases (x y : Binary64) : min x y = x ∨ min x y = y := by
  show smaller x y = x ∨ smaller x y = y
  unfold smaller
  split
  · exact .inr rfl
  · split
    · exact .inl rfl
    · split
      · exact .inr rfl
      · exact .inl rfl

theorem min_again (x y : Binary64) : min (min x y) y = min x y := by
  rcases min_cases x y with same | same
  · rw [same,same]
  · rw [same,min_self]

theorem min_add_zero (x : Binary64) (two : y.sign = false) (least : 1 ≤ c) : min (x + y) c + 0 = min (x + y) c := by
  refine add_zero_plain ?_
  rcases min_cases (x + y) c with same | same
  · rw [same]
    exact add_ne_negative_zero x two
  · rw [same]
    rintro rfl
    have finite : (zero true).IsFinite := trivial
    have most := (value_le one_yields.1 finite).mp least
    rw [one_yields.2] at most
    exact absurd most (by simp [zero,value,signed])

end LoadPacing.Binary64
