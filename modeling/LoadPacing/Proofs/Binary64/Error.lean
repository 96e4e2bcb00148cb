import LoadPacing.Proofs.Binary64.Neighbours
import Mathlib.Algebra.Order.AbsoluteValue.Basic

-- How far a result is from the exact one: a part of it in 2^53, and half a unit where doubles are closest.
namespace LoadPacing.Binary64

variable {x : Binary64} {q r : ℚ}

-- The most that a result near zero is off.
def halfUnit : ℚ := 1 / 2 / perOne

theorem halfUnit_small : halfUnit ≤ 1 / 2 ^ 64 := by
  have large : 2 ^ 64 ≤ perOne := by
    rw [perOne_pow]
    exact pow_le_pow_right₀ (by norm_num) (by norm_num)
  have cast : (2 : ℚ) ^ 64 ≤ perOne := by exact_mod_cast large
  calc halfUnit ≤ 1 / perOne := div_le_div_of_nonneg_right (by norm_num) perOne_value.le
    _ ≤ 1 / 2 ^ 64 := one_div_le_one_div_of_le (by positivity) cast

theorem halfUnit_scaled (finite : x.IsFinite) : halfUnit * x.value ≤ 1 / 2 ^ 51 := by
  have unit := perOne_value
  have square : limit * 2 ^ 50 = perOne * perOne := by rw [limit_pow,perOne_pow,← pow_add,← pow_add]
  have squared : (limit : ℚ) * 2 ^ 50 = perOne * perOne := by
    have cast := congrArg (Nat.cast : Nat → ℚ) square
    rwa [Nat.cast_mul,Nat.cast_mul,Nat.cast_pow,Nat.cast_ofNat] at cast
  obtain ⟨units,placed,same⟩ := place_value finite
  obtain ⟨units',placed',_,below⟩ := place_finite finite
  rw [placed] at placed'
  cases placed'
  have most : (units : ℚ) ≤ limit := by exact_mod_cast below.le
  have product : halfUnit * x.value = 1 / 2 * units / (perOne * perOne) := by
    rw [halfUnit,same]
    field_simp
  have square_pos : (0 : ℚ) < perOne * perOne := mul_pos unit unit
  rw [product,div_le_iff₀ square_pos,← squared]
  linarith

theorem spacing_half (positive : 0 ≤ q) : (spacing ⌊q⌋₊ : ℚ) / 2 ≤ q / 2 ^ 53 + 1 / 2 := by
  by_cases normal : 2 ^ 52 ≤ ⌊q⌋₊
  · obtain ⟨least,gaps⟩ := power_gaps normal
    rw [← gaps] at least
    have cast : (2 : ℚ) ^ 52 * spacing ⌊q⌋₊ ≤ ⌊q⌋₊ := by exact_mod_cast least
    have floor := Nat.floor_le positive
    linarith
  · have one : spacing ⌊q⌋₊ = 1 := by
      have small : ⌊q⌋₊.log2 ≤ (2 ^ 52).log2 := log2_mono (Nat.not_le.mp normal).le
      rw [Nat.log2_two_pow] at small
      show 2 ^ (⌊q⌋₊.log2 - 52) = 1
      rw [Nat.sub_eq_zero_of_le small,Nat.pow_zero]
    rw [one,Nat.cast_one]
    exact le_add_of_nonneg_left (by positivity)

theorem gridPoint_near (positive : 0 ≤ q) : |(gridPoint q : ℚ) - q| ≤ q / 2 ^ 53 + 1 / 2 := by
  have gap := spacing_value ⌊q⌋₊
  have half := spacing_half positive
  obtain ⟨low,high⟩ := nearestEven_near (div_nonneg positive gap.le)
  have scaled : q / spacing ⌊q⌋₊ * spacing ⌊q⌋₊ = q := div_mul_cancel₀ q gap.ne'
  unfold gridPoint
  push_cast
  rw [abs_le]
  constructor
  · have least := mul_le_mul_of_nonneg_right low gap.le
    linarith
  · have most := mul_le_mul_of_nonneg_right high gap.le
    linarith

theorem magnitude_near (positive : 0 ≤ q) (inside : magnitude q < limit) :
    |(magnitude q : ℚ) / perOne - q| ≤ q / 2 ^ 53 + halfUnit := by
  have unit := perOne_value
  have near := gridPoint_near (by positivity : 0 ≤ q * perOne)
  have same : magnitude q = gridPoint (q * perOne) := by
    unfold magnitude at inside ⊢
    omega
  have scaled : (magnitude q : ℚ) / perOne - q = ((gridPoint (q * perOne) : ℚ) - q * perOne) / perOne := by
    rw [same]
    field_simp
  rw [scaled,abs_div,abs_of_pos unit,div_le_iff₀ unit,halfUnit]
  calc |(gridPoint (q * perOne) : ℚ) - q * perOne| ≤ q * perOne / 2 ^ 53 + 1 / 2 := near
    _ = (q / 2 ^ 53 + 1 / 2 / perOne) * perOne := by field_simp

theorem Rounds.near (rounds : x.Rounds q) (finite : x.IsFinite) : |x.value - q| ≤ |q| / 2 ^ 53 + halfUnit := by
  obtain ⟨place,placed,same⟩ := place_value finite
  obtain ⟨place',placed',above,below⟩ := place_finite finite
  rw [placed] at placed'
  cases placed'
  have nearest : place = roundedPlace q := Option.some.inj (placed.symm.trans rounds)
  unfold roundedPlace at nearest
  rw [same]
  split at nearest
  · rename_i positive
    have near := magnitude_near positive (by omega)
    rwa [nearest,Int.cast_natCast,abs_of_nonneg positive]
  · rename_i negative
    have turned : 0 ≤ -q := by linarith
    have near := magnitude_near turned (by omega)
    rw [nearest,Int.cast_neg,Int.cast_natCast,abs_of_nonpos (by linarith : q ≤ 0)]
    have opposite : -(magnitude (-q) : ℚ) / perOne - q = -((magnitude (-q) : ℚ) / perOne - -q) := by ring
    rwa [opposite,abs_neg]

theorem Rounds.within (rounds : x.Rounds q) (most : |q| ≤ 2 ^ 65) :
    x.IsFinite ∧ |x.value - q| ≤ |q| / 2 ^ 53 + halfUnit := by
  have bound : (ofNat (2 ^ 65)).Yields (2 ^ 65) := by decide +kernel
  have opposite := negate_yields bound
  obtain ⟨above,below⟩ := abs_le.mp most
  have finite := (rounds.between opposite.rounds bound.rounds opposite.1 bound.1 above below).1
  exact ⟨finite,rounds.near finite⟩

-- The seconds of a duration within the reach of the clock, rounded in two parts and then in sum.
theorem toSeconds_near {d : Nanos} (inside : d < Nanos.horizon) :
    (Nanos.toSeconds d).IsFinite ∧ (Nanos.toSeconds d).value ≤ (d : ℚ) / 10 ^ 9 * (1 + 1 / 2 ^ 51) + 4 * halfUnit := by
  have tiny := halfUnit_small
  have second : ((Nanos.perSecond : Nat) : ℚ) = 10 ^ 9 := by norm_num [Nanos.perSecond]
  have below : d % Nanos.perSecond < Nanos.perSecond := Nat.mod_lt d (by decide)
  have parts : (d : ℚ) / 10 ^ 9 = (d / Nanos.perSecond : Nat) + (d % Nanos.perSecond : Nat) / (Nanos.perSecond : Nat) := by
    have cast : (d : ℚ) = (Nanos.perSecond : Nat) * (d / Nanos.perSecond : Nat) + (d % Nanos.perSecond : Nat) := by
      exact_mod_cast (Nat.div_add_mod d Nanos.perSecond).symm
    rw [second] at cast ⊢
    rw [cast]
    field_simp
  have wholeLeast : (0 : ℚ) ≤ (d / Nanos.perSecond : Nat) := Nat.cast_nonneg _
  have wholeMost : ((d / Nanos.perSecond : Nat) : ℚ) ≤ 2 ^ 63 := by
    have seconds : d / Nanos.perSecond < 2 ^ 63 := Nat.div_lt_of_lt_mul (inside.trans_eq (Nat.mul_comm _ _))
    exact_mod_cast seconds.le
  have restLeast : (0 : ℚ) ≤ (d % Nanos.perSecond : Nat) / (Nanos.perSecond : Nat) := by positivity
  have restMost : ((d % Nanos.perSecond : Nat) : ℚ) / (Nanos.perSecond : Nat) ≤ 1 :=
    div_le_one_of_le₀ (by exact_mod_cast below.le) (Nat.cast_nonneg _)
  have small : Nanos.perSecond ≤ 2 ^ 53 := by decide
  have whole := ofNat_rounds (d / Nanos.perSecond)
  have rest := fraction_rounds (below.le.trans small) small (by decide)
  rw [parts]
  generalize ((d / Nanos.perSecond : Nat) : ℚ) = w at *
  generalize ((d % Nanos.perSecond : Nat) : ℚ) / (Nanos.perSecond : Nat) = f at *
  obtain ⟨wFinite,wNear⟩ := whole.within (by rw [abs_of_nonneg wholeLeast]; linarith)
  obtain ⟨fFinite,fNear⟩ := rest.within (by rw [abs_of_nonneg restLeast]; linarith)
  rw [abs_of_nonneg wholeLeast,abs_le] at wNear
  rw [abs_of_nonneg restLeast,abs_le] at fNear
  have sum := add_rounds wFinite fFinite
  have size : |(ofNat (d / Nanos.perSecond)).value + (ofNat (d % Nanos.perSecond) / ofNat Nanos.perSecond).value| ≤
      (w + f) * (1 + 1 / 2 ^ 53) + 2 * halfUnit := by
    rw [abs_le]
    constructor <;> linarith
  obtain ⟨finite,near⟩ := sum.within (by linarith)
  refine ⟨finite,?_⟩
  have high := (abs_le.mp near).2
  show (ofNat (d / Nanos.perSecond) + ofNat (d % Nanos.perSecond) / ofNat Nanos.perSecond).value ≤ _
  linarith

end LoadPacing.Binary64
