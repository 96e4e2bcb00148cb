import LoadPacing.Proofs.Binary64.Neighbours

-- The operations keep the order of their arguments when these may be infinite, too.
namespace LoadPacing.Binary64

variable {a b c d x y : Binary64}

theorem infinite_le_infinite (negative : Bool) :
    infinite negative ≤ infinite false ∧ infinite true ≤ infinite negative := by
  have apart : -(limit : Int) ≤ limit := by omega
  cases negative with
  | false => exact ⟨(le_iff_place _ _).mpr ⟨_,_,rfl,rfl,le_rfl⟩,(le_iff_place _ _).mpr ⟨_,_,rfl,rfl,apart⟩⟩
  | true => exact ⟨(le_iff_place _ _).mpr ⟨_,_,rfl,rfl,apart⟩,(le_iff_place _ _).mpr ⟨_,_,rfl,rfl,le_rfl⟩⟩

theorem le_infinite (number : x ≠ .nan) : x ≤ .infinite false := by
  cases x with
  | nan => exact absurd rfl number
  | infinite negative => exact (infinite_le_infinite negative).1
  | finite negative units onGrid => exact (finite_rounds (x := .finite negative units onGrid) trivial).number

theorem infinite_le (number : x ≠ .nan) : .infinite true ≤ x := by
  cases x with
  | nan => exact absurd rfl number
  | infinite negative => exact (infinite_le_infinite negative).2
  | finite negative units onGrid =>
    obtain ⟨place,placed,above,_⟩ := place_finite (x := .finite negative units onGrid) trivial
    exact (le_iff_place _ _).mpr ⟨_,place,rfl,placed,above.le⟩

theorem le_cases (most : x ≤ y) :
    x = .infinite true ∨ y = .infinite false ∨ x.IsFinite ∧ y.IsFinite ∧ x.value ≤ y.value := by
  cases x with
  | nan => exact absurd rfl (number_of_le most).1
  | infinite negative =>
    cases negative with
    | true => exact .inl rfl
    | false => exact .inr (.inl (above_infinite most))
  | finite negative units onGrid =>
    have finite : (Binary64.finite negative units onGrid).IsFinite := trivial
    rcases above_cases finite most with top | ⟨yFinite,values⟩
    · exact .inr (.inl top)
    · exact .inr (.inr ⟨finite,yFinite,values⟩)

theorem add_number (number : x ≠ .nan) (finite : y.IsFinite) : x + y ≠ .nan := by
  obtain ⟨b,n,nGrid,rfl⟩ := finite_form finite
  cases x with
  | nan => exact absurd rfl number
  | infinite negative => nofun
  | finite a m mGrid =>
    intro none
    have rounds := add_rounds (x := .finite a m mGrid) (y := .finite b n nGrid) trivial trivial
    rw [none] at rounds
    cases rounds

theorem add_mono (one : a ≤ x) (two : b ≤ y) (bFinite : b.IsFinite) (yFinite : y.IsFinite) : a + b ≤ x + y := by
  obtain ⟨aNumber,xNumber⟩ := number_of_le one
  rcases le_cases one with rfl | rfl | ⟨aFinite,_⟩
  · obtain ⟨_,_,_,rfl⟩ := finite_form bFinite
    exact infinite_le (add_number xNumber yFinite)
  · obtain ⟨_,_,_,rfl⟩ := finite_form yFinite
    exact le_infinite (add_number aNumber bFinite)
  · exact add_le_add aFinite bFinite one two

theorem le_add_number (number : x ≠ .nan) (least : 0 ≤ y) (finite : y.IsFinite) : x ≤ x + y := by
  rcases le_cases (le_number number) with rfl | rfl | ⟨xFinite,_⟩
  · exact infinite_le (add_number number finite)
  · obtain ⟨_,_,_,rfl⟩ := finite_form finite
    exact le_number number
  · exact le_add xFinite (le_number number) least

theorem add_zero_yields (finite : x.IsFinite) : (x + 0).Yields x.value := by
  have sum := add_rounds finite zero_yields.1
  rw [zero_yields.2,add_zero] at sum
  exact sum.exact ⟨finite,rfl⟩

theorem add_zero_same (x : Binary64) : (x + 0).value = x.value ∧ (x ≠ .nan → x + 0 ≤ x) := by
  obtain ⟨_,_,_,zero⟩ := finite_form zero_yields.1
  cases x with
  | nan => exact ⟨rfl,fun number => absurd rfl number⟩
  | infinite negative =>
    rw [zero]
    exact ⟨rfl,le_number⟩
  | finite negative units onGrid =>
    have exact := add_zero_yields (x := .finite negative units onGrid) trivial
    exact ⟨exact.2,fun _ => (value_le (y := .finite negative units onGrid) exact.1 trivial).mpr exact.2.le⟩

theorem add_zero_le (number : x ≠ .nan) : x + 0 ≤ x := (add_zero_same x).2 number

theorem sub_one_le (number : x ≠ .nan) : x - 1 ≤ x := by
  have minus : (-1 : Binary64) ≤ 0 := by
    refine (value_le (negate_finite one_yields.1) zero_yields.1).mpr ?_
    rw [negate_value,one_yields.2,zero_yields.2]
    norm_num
  have less := add_mono (le_number number) minus (negate_finite one_yields.1) zero_yields.1
  exact le_trans less (add_zero_le number)

theorem mul_mono (least : 0 ≤ x) (flows : a.Positive) (finite : b.IsFinite) (most : a ≤ b) : x * a ≤ x * b := by
  have faster : b.Positive := ⟨finite,lt_of_lt_of_le flows.2 most⟩
  rcases above_cases zero_yields.1 least with rfl | ⟨xFinite,positive⟩
  · rw [infinite_mul flows,infinite_mul faster]
    exact le_number nofun
  · rw [zero_yields.2] at positive
    have rates := (value_le flows.1 finite).mp most
    exact (mul_rounds xFinite flows.1).le (mul_rounds xFinite finite) (mul_le_mul_of_nonneg_left rates positive)

theorem zero_mul (flows : x.Positive) : 0 * x = 0 := by
  obtain ⟨units,onGrid,rfl,_⟩ := positive_form flows
  rw [zero_form]
  show rounded (false ^^ false) (0 * units) perOne = _
  rw [Nat.zero_mul,rounded_none]
  rfl

theorem min_le_left (number : x ≠ .nan) : min x y ≤ x := by
  show smaller x y ≤ x
  unfold smaller
  rw [if_neg number]
  split
  · exact le_number number
  · split
    · rename_i less
      exact le_of_lt less
    · exact le_number number

theorem min_le_right (number : y ≠ .nan) : min x y ≤ y := by
  show smaller x y ≤ y
  unfold smaller
  rw [if_neg number]
  split
  · exact le_number number
  · split
    · exact le_number number
    · rename_i xNumber notLess
      exact le_of_not_lt xNumber number notLess

theorem max_le {z : Binary64} (one : x ≤ z) (two : y ≤ z) : max x y ≤ z := by
  show larger x y ≤ z
  unfold larger
  split
  · exact two
  · split
    · exact one
    · split
      · exact two
      · exact one

theorem le_max_left (number : x ≠ .nan) (other : y ≠ .nan) : x ≤ max x y := by
  show x ≤ larger x y
  unfold larger
  rw [if_neg number,if_neg other]
  split
  · rename_i less
    exact le_of_lt less
  · exact le_number number

theorem min_flooded (number : c ≠ .nan) : min (x + .infinite false) c = c := by
  have sum : x + .infinite false = .nan ∨ x + .infinite false = .infinite false := by
    cases x with
    | nan => exact .inl rfl
    | infinite negative =>
      cases negative with
      | false => exact .inr rfl
      | true => exact .inl rfl
    | finite negative units onGrid => exact .inr rfl
  show smaller _ c = c
  rcases sum with none | top
  · rw [none]
    exact if_pos rfl
  · rw [top]
    unfold smaller
    rw [if_neg nofun,if_neg number]
    split
    · rfl
    · rename_i notLess
      exact (above_infinite (le_of_not_lt nofun number notLess)).symm

theorem capped_mono (one : a ≤ x) (least : 0 ≤ b) (two : b ≤ y) (three : c ≤ d) : min (a + b) c ≤ min (x + y) d := by
  obtain ⟨cNumber,dNumber⟩ := number_of_le three
  have capped : min (a + b) c ≤ d := le_trans (min_le_right cNumber) three
  rcases above_cases zero_yields.1 (le_trans least two) with rfl | ⟨yFinite,_⟩
  · rwa [min_flooded dNumber]
  · have bFinite := finite_of_between zero_yields.1 yFinite least two
    have sum := add_mono one two bFinite yFinite
    exact le_min (le_trans (min_le_left (number_of_le sum).1) sum) capped

end LoadPacing.Binary64
