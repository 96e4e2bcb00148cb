import LoadPacing.Proofs.Binary64.Signs

-- The double that a number in decimal notation is read as: of all finite ones none is nearer to it.
namespace LoadPacing.Binary64

variable {x y : Binary64} {q : ℚ} {u : Nat}

theorem nearestEven_nearest (positive : 0 ≤ q) (n : Nat) : |(nearestEven q : ℚ) - q| ≤ |(n : ℚ) - q| := by
  obtain ⟨low,high⟩ := nearestEven_near positive
  have half : |(nearestEven q : ℚ) - q| ≤ 1 / 2 := abs_le.mpr ⟨by linarith,by linarith⟩
  rcases lt_trichotomy n (nearestEven q) with below | rfl | above
  · have apart : (n : ℚ) + 1 ≤ nearestEven q := by exact_mod_cast below
    exact half.trans (le_abs.mpr (.inr (by linarith)))
  · exact le_refl _
  · have apart : (nearestEven q : ℚ) + 1 ≤ n := by exact_mod_cast above
    exact half.trans (le_abs.mpr (.inl (by linarith)))

theorem gridPoint_nearest_multiple (positive : 0 ≤ q) (multiple : spacing ⌊q⌋₊ ∣ u) :
    |(gridPoint q : ℚ) - q| ≤ |(u : ℚ) - q| := by
  obtain ⟨t,rfl⟩ := multiple
  have gap := spacing_value ⌊q⌋₊
  have nearest := nearestEven_nearest (div_nonneg positive gap.le) t
  have scaled (n : Nat) : ((n * spacing ⌊q⌋₊ : Nat) : ℚ) - q = ((n : ℚ) - q / spacing ⌊q⌋₊) * spacing ⌊q⌋₊ := by
    push_cast
    field_simp
  rw [Nat.mul_comm,scaled t,gridPoint,scaled,abs_mul,abs_mul]
  exact mul_le_mul_of_nonneg_right nearest (abs_nonneg _)

-- A grid point that is no multiple of the gap lies on the other side of a power of two that is one.
theorem gridPoint_nearest (positive : 0 ≤ q) (onGrid : spacing u ∣ u) :
    |(gridPoint q : ℚ) - q| ≤ |(u : ℚ) - q| := by
  by_cases coarse : ⌊q⌋₊.log2 ≤ u.log2
  · exact gridPoint_nearest_multiple positive ((spacing_dvd coarse).trans onGrid)
  · have less : u ≤ ⌊q⌋₊ := by
      by_contra above
      exact coarse (log2_mono (Nat.le_of_lt (Nat.not_le.mp above)))
    have most : (u : ℚ) ≤ q := (Nat.cast_le.mpr less).trans (Nat.floor_le positive)
    have other : ⌊(u : ℚ)⌋₊.log2 ≠ ⌊q⌋₊.log2 := by
      rw [Nat.floor_natCast]
      omega
    obtain ⟨above,below⟩ := power_between other most
    have power := gridPoint_nearest_multiple positive (spacing_power ⌊q⌋₊)
    rw [abs_of_nonpos (sub_nonpos.mpr below)] at power
    rw [abs_of_nonpos (sub_nonpos.mpr most)]
    linarith

theorem Rounds.nearest_above (rounds : x.Rounds q) (finite : x.IsFinite) (positive : 0 ≤ q) (other : y.IsFinite) :
    |x.value - q| ≤ |y.value - q| := by
  have unit := perOne_value
  obtain ⟨place,placed,same⟩ := place_value finite
  obtain ⟨place',placed',_,below⟩ := place_finite finite
  rw [placed] at placed'
  cases placed'
  have nearest : place = roundedPlace q := Option.some.inj (placed.symm.trans rounds)
  rw [roundedPlace,if_pos positive,magnitude] at nearest
  have inside : place = gridPoint (q * perOne) := by omega
  obtain ⟨negative,units,onGrid,rfl⟩ := finite_form other
  have grid := gridPoint_nearest (by positivity : 0 ≤ q * perOne) onGrid.1
  have scaled (t : ℚ) : t / perOne - q = (t - q * perOne) / perOne := by field_simp
  rw [same,inside,Int.cast_natCast,scaled,value,scaled,abs_div,abs_div]
  refine div_le_div_of_nonneg_right (grid.trans ?_) (abs_nonneg _)
  cases negative with
  | false => exact le_refl _
  | true =>
    have size : 0 ≤ q * perOne := by positivity
    have some : (0 : ℚ) ≤ units := Nat.cast_nonneg units
    simp only [signed,if_true]
    push_cast
    rw [abs_of_nonpos (by linarith : -(units : ℚ) - q * perOne ≤ 0)]
    exact abs_le.mpr ⟨by linarith,by linarith⟩

theorem Rounds.nearest (rounds : x.Rounds q) (finite : x.IsFinite) (other : y.IsFinite) :
    |x.value - q| ≤ |y.value - q| := by
  rcases le_total 0 q with positive | negative
  · exact rounds.nearest_above finite positive other
  · have turned := rounds.negate.nearest_above (negate_finite finite) (neg_nonneg.mpr negative) (negate_finite other)
    have opposite (v : ℚ) : |(-v) - (-q)| = |v - q| := by rw [neg_sub_neg,abs_sub_comm]
    rwa [negate_value,negate_value,opposite,opposite] at turned

-- Two doubles at one place differ in the sign of a zero at most.
theorem eq_of_place (same : x.place = y.place) (finite : x.IsFinite) (signs : x.sign = y.sign) : x = y := by
  obtain ⟨negative,units,onGrid,rfl⟩ := finite_form finite
  cases y with
  | nan => cases same
  | infinite other =>
    have below := onGrid.2
    have places := Option.some.inj same
    cases negative <;> cases other <;> simp only [Bool.false_eq_true,if_false,if_true] at places <;> omega
  | finite other units' onGrid' =>
    cases signs
    have places := Option.some.inj same
    have equal : units = units' := by cases negative <;> simp only [Bool.false_eq_true,if_false,if_true] at places <;> omega
    subst equal
    rfl

section Notation
variable (negative : Bool) (coefficient : Nat)

theorem infinite_rounds (beyond : (2 : ℚ) ^ 1024 ≤ q) :
    (infinite negative).Rounds ((if negative then -1 else 1) * q) := by
  have onGrid : spacing limit ∣ limit := by
    rw [limit_pow]
    exact power_onGrid 2098
  have whole : limit = 2 ^ 1024 * perOne := by rw [limit_pow,perOne_pow,← pow_add]
  have units : (limit : ℚ) = 2 ^ 1024 * perOne := by rw [whole,Nat.cast_mul,Nat.cast_pow,Nat.cast_ofNat]
  have most : (limit : ℚ) ≤ q * perOne := by
    rw [units]
    exact mul_le_mul_of_nonneg_right beyond perOne_value.le
  have place : roundedPlace q = limit := by
    rw [roundedPlace,if_pos ((by positivity : (0 : ℚ) ≤ 2 ^ 1024).trans beyond),magnitude,
      Nat.min_eq_right (le_gridPoint onGrid most)]
  unfold Rounds
  cases negative with
  | false => rw [if_neg (by decide),one_mul,place]; rfl
  | true => rw [if_pos rfl,neg_one_mul,roundedPlace_neg,place]; rfl

theorem zero_rounds_small (positive : 0 ≤ q) (small : q * perOne < 1 / 2) :
    (zero negative).Rounds ((if negative then -1 else 1) * q) := by
  have none : gridPoint (q * perOne) = 0 := by
    have floor : ⌊q * perOne⌋₊ = 0 := Nat.floor_eq_zero.mpr (small.trans (by norm_num))
    have one : spacing 0 = 1 := by decide
    rw [gridPoint,floor,one,Nat.cast_one,div_one,Nat.mul_one,nearestEven,floor,Nat.cast_zero,sub_zero,if_pos small]
  have place : roundedPlace q = 0 := by
    rw [roundedPlace,if_pos positive,magnitude,none,Nat.zero_min]
    rfl
  unfold Rounds
  cases negative with
  | false => rw [if_neg (by decide),one_mul,place]; rfl
  | true => rw [if_pos rfl,neg_one_mul,roundedPlace_neg,place]; rfl

theorem ten_power (e : Nat) : (2 : ℚ) ^ (3 * e) ≤ 10 ^ e := by
  rw [pow_mul]
  exact pow_le_pow_left₀ (by norm_num) (by norm_num) e

theorem ofDecimal_rounds (exponent : Int) :
    (ofDecimal negative coefficient exponent).Rounds ((if negative then -1 else 1) * (coefficient * 10 ^ exponent)) := by
  have unit := perOne_value
  unfold ofDecimal
  by_cases none : coefficient = 0
  · rw [if_pos none,none,Nat.cast_zero,MulZeroClass.zero_mul,MulZeroClass.mul_zero]
    exact zero_rounds negative
  rw [if_neg none]
  have least : (2 : ℚ) ^ coefficient.log2 ≤ coefficient := by exact_mod_cast Nat.log2_self_le none
  have most : (coefficient : ℚ) < 2 ^ (coefficient.log2 + 1) := by exact_mod_cast Nat.lt_log2_self
  cases exponent with
  | ofNat e =>
    dsimp only
    have power : (10 : ℚ) ^ (Int.ofNat e) = 10 ^ e := zpow_natCast _ _
    rw [power]
    split
    · rename_i large
      refine infinite_rounds negative ?_
      calc (2 : ℚ) ^ 1024 ≤ 2 ^ (coefficient.log2 + 3 * e) := pow_le_pow_right₀ (by norm_num) large
        _ = 2 ^ coefficient.log2 * 2 ^ (3 * e) := pow_add _ _ _
        _ ≤ coefficient * 10 ^ e := mul_le_mul least (ten_power e) (by positivity) (by positivity)
    · have rounds := rounded_rounds negative (coefficient * Nat.pow 10 e * perOne) Nat.one_pos
      have same : ((coefficient * Nat.pow 10 e * perOne : Nat) : ℚ) / (1 : Nat) / perOne = coefficient * 10 ^ e := by
        rw [Nat.pow_eq]
        push_cast
        field_simp
      rwa [same] at rounds
  | negSucc e =>
    dsimp only
    have power : (10 : ℚ) ^ (Int.negSucc e) = (10 ^ (e + 1))⁻¹ := zpow_negSucc _ _
    rw [power]
    split
    · rename_i small
      refine zero_rounds_small negative (by positivity) ?_
      have units : (perOne : ℚ) = 2 ^ 1074 := by rw [perOne_pow,Nat.cast_pow,Nat.cast_ofNat]
      have tens := ten_power (e + 1)
      have size : (coefficient : ℚ) * 2 ^ 1074 * 2 < 10 ^ (e + 1) := by
        calc (coefficient : ℚ) * 2 ^ 1074 * 2 < 2 ^ (coefficient.log2 + 1) * 2 ^ 1074 * 2 := by gcongr
          _ = 2 ^ (coefficient.log2 + 1 + 1074 + 1) := by
            rw [pow_succ 2 (coefficient.log2 + 1 + 1074),pow_add 2 (coefficient.log2 + 1) 1074]
          _ ≤ 2 ^ (3 * (e + 1)) := pow_le_pow_right₀ (by norm_num) (by omega)
          _ ≤ 10 ^ (e + 1) := tens
      rw [units,mul_right_comm,← div_eq_mul_inv,div_lt_div_iff₀ (by positivity) two_pos,one_mul]
      exact size
    · have rounds := rounded_rounds negative (coefficient * perOne) (Nat.pow_pos (by decide) : 0 < Nat.pow 10 (e + 1))
      have same : ((coefficient * perOne : Nat) : ℚ) / ((10 ^ (e + 1) : Nat) : ℚ) / perOne =
          coefficient * (10 ^ (e + 1))⁻¹ := by
        push_cast
        field_simp
      rw [same] at rounds
      exact rounds

theorem ofDecimal_sign (exponent : Int) : (ofDecimal negative coefficient exponent).sign = negative := by
  unfold ofDecimal
  split
  · rfl
  · split
    · split
      · rfl
      · exact rounded_sign _ _ _
    · split
      · rfl
      · exact rounded_sign _ _ _

end Notation
end LoadPacing.Binary64
