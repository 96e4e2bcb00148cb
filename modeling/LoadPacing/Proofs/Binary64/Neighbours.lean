import LoadPacing.Proofs.Binary64.Rounding

-- The steps from a double to the next ones.
namespace LoadPacing.Binary64

variable {x y : Binary64} {m n : Nat}

theorem value_units (onGrid : OnGrid n) : (finite false n onGrid).value = n / perOne := by simp [value,signed]

theorem lt_units {mGrid : OnGrid m} {nGrid : OnGrid n} : finite false m mGrid < finite false n nGrid ↔ m < n := by
  rw [lt_iff_place]
  simp [place]

theorem eq_of_value (xFinite : x.IsFinite) (yFinite : y.IsFinite) (some : x.value ≠ 0) (same : x.value = y.value) :
    x = y := by
  obtain ⟨a,m,mGrid,rfl⟩ := finite_form xFinite
  obtain ⟨b,n,nGrid,rfl⟩ := finite_form yFinite
  have one := perOne_value.ne'
  have units : signed a m = signed b n := by
    rw [value,value,div_left_inj' one,Int.cast_inj] at same
    exact same
  have signed_some : signed a m ≠ 0 := by
    intro none
    rw [value,none,Int.cast_zero,zero_div] at some
    exact some rfl
  have parts : a = b ∧ m = n := by
    cases a <;> cases b <;> simp [signed] at units signed_some ⊢ <;> omega
  obtain ⟨rfl,rfl⟩ := parts
  rfl

theorem mul_swap (x y : Binary64) : x * y = y * x := by
  show mul x y = mul y x
  cases x <;> cases y <;> simp [mul,Bool.xor_comm,Nat.mul_comm]

theorem mul_unit (flows : x.Positive) : x * 1 = x := by
  have product := mul_rounds flows.1 one_yields.1
  rw [one_yields.2,mul_one] at product
  have exact := product.exact ⟨flows.1,rfl⟩
  exact (eq_of_value flows.1 exact.1 (positive_value flows).ne' exact.2.symm).symm

theorem add_zero_exact (finite : x.IsFinite) (some : x.value ≠ 0) : x + 0 = x := by
  have sum := add_rounds finite zero_yields.1
  rw [zero_yields.2,add_zero] at sum
  have exact := sum.exact ⟨finite,rfl⟩
  exact (eq_of_value finite exact.1 some exact.2.symm).symm

theorem above_infinite (most : infinite false ≤ x) : x = infinite false := by
  obtain ⟨a,b,infinitePlace,xPlace,ab⟩ := (le_iff_place _ _).mp most
  cases Option.some.inj infinitePlace
  cases x with
  | nan => cases xPlace
  | infinite negative =>
    cases negative with
    | false => rfl
    | true =>
      cases Option.some.inj xPlace
      have some := limit_pos
      simp at ab
      omega
  | finite negative units onGrid =>
    have finite : (Binary64.finite negative units onGrid).IsFinite := trivial
    obtain ⟨b',xPlace',_,below⟩ := place_finite finite
    rw [xPlace] at xPlace'
    cases xPlace'
    exact absurd ab (not_le.mpr below)

-- The first product may be past the finite numbers, and the second with it.
theorem mul_le_mul_left {a : Binary64} (least : 0 ≤ a) (most : a ≤ x) (flows : y.Positive) : y * a ≤ y * x := by
  rw [mul_swap y a,mul_swap y x]
  rcases above_cases zero_yields.1 least with rfl | ⟨finite,_⟩
  · rw [above_infinite most,infinite_mul flows]
    exact (le_iff_place _ _).mpr ⟨_,_,rfl,rfl,le_refl _⟩
  · exact mul_le_mul_right finite most flows

theorem gap_le (mGrid : spacing m ∣ m) (nGrid : spacing n ∣ n) (less : m < n) : m + spacing m ≤ n := by
  have wider : spacing m ∣ n := (spacing_dvd (log2_mono less.le)).trans nGrid
  exact Nat.le_of_lt_add_of_dvd (Nat.add_lt_add_right less _) (mGrid.add (dvd_refl _)) wider

theorem le_gaps (onGrid : spacing n ∣ n) : n ≤ (2 ^ 53 - 1) * spacing n := by
  have steps := div_spacing_lt n
  calc n = n / spacing n * spacing n := (Nat.div_mul_cancel onGrid).symm
    _ ≤ (2 ^ 53 - 1) * spacing n := Nat.mul_le_mul_right _ (Nat.le_sub_one_of_lt steps)

theorem ratio_apart (mGrid : spacing m ∣ m) (nGrid : spacing n ∣ n) (less : m < n) : m * 2 ^ 53 ≤ n * (2 ^ 53 - 1) := by
  have room := gap_le mGrid nGrid less
  have gaps := le_gaps mGrid
  calc m * 2 ^ 53 = m * (2 ^ 53 - 1) + m := by lia
    _ ≤ m * (2 ^ 53 - 1) + (2 ^ 53 - 1) * spacing m := Nat.add_le_add_left gaps _
    _ = (m + spacing m) * (2 ^ 53 - 1) := by lia
    _ ≤ n * (2 ^ 53 - 1) := Nat.mul_le_mul_right _ room

theorem spacing_part (normal : 2 ^ 52 ≤ n) : 2 ^ 52 * spacing n = 2 ^ n.log2 := by
  have large : 52 ≤ n.log2 := (Nat.le_log2 (by lia)).mpr normal
  show 2 ^ 52 * 2 ^ (n.log2 - 52) = 2 ^ n.log2
  rw [← Nat.pow_add]
  congr 1
  lia

theorem next_onGrid (onGrid : spacing n ∣ n) : spacing (n + spacing n) ∣ n + spacing n := by
  have inside : n < 2 ^ (n.log2 + 1) := Nat.lt_log2_self
  have widens : spacing n ∣ 2 ^ (n.log2 + 1) := Nat.pow_dvd_pow 2 (by lia)
  have room : n + spacing n ≤ 2 ^ (n.log2 + 1) :=
    Nat.le_of_lt_add_of_dvd (Nat.add_lt_add_right inside _) (onGrid.add (dvd_refl _)) widens
  rcases room.lt_or_eq with less | top
  · have same : (n + spacing n).log2 = n.log2 := by
      have some : n + spacing n ≠ 0 := Nat.ne_of_gt (Nat.add_pos_right n (spacing_pos n))
      have least := log2_mono (Nat.le_add_right n (spacing n))
      have most := (Nat.log2_lt some).mpr less
      lia
    have gaps : spacing (n + spacing n) = spacing n := by rw [spacing,same,spacing]
    rw [gaps]
    exact onGrid.add (dvd_refl _)
  · rw [top]
    exact power_onGrid _

theorem power_gaps (normal : 2 ^ 52 ≤ n) : 2 ^ n.log2 ≤ n ∧ 2 ^ 52 * spacing n = 2 ^ n.log2 :=
  ⟨Nat.log2_self_le (by lia),spacing_part normal⟩

theorem gridPoint_raised (onGrid : spacing n ∣ n) (normal : 2 ^ 52 ≤ n) : n < gridPoint (n * (1 + 1 / 2 ^ 52)) := by
  obtain ⟨least,gaps⟩ := power_gaps normal
  have part : (2 : ℚ) ^ 52 * spacing n ≤ n := by
    rw [← gaps] at least
    exact_mod_cast least
  have reached : ((n + spacing n : Nat) : ℚ) ≤ n * (1 + 1 / 2 ^ 52) := by
    push_cast
    linarith
  exact (Nat.lt_add_of_pos_right (spacing_pos n)).trans_le (le_gridPoint (next_onGrid onGrid) reached)

-- Inside a range between two powers of two, less than halfway to the gap below is rounded down.
theorem gridPoint_lt {q : ℚ} (onGrid : spacing n ∣ n) (inside : 2 ^ n.log2 < n) (positive : 0 ≤ q)
    (below : q < n - spacing n / 2) : gridPoint q < n := by
  have gap := spacing_value n
  by_cases same : ⌊q⌋₊.log2 = ⌊(n : ℚ)⌋₊.log2
  · rw [Nat.floor_natCast] at same
    have gaps : spacing ⌊q⌋₊ = spacing n := by rw [spacing,same,spacing]
    obtain ⟨a,steps⟩ := onGrid
    have scaled : q / spacing n < a - 1 / 2 := by
      have cast : (n : ℚ) = spacing n * a := by exact_mod_cast steps
      rw [div_lt_iff₀ gap]
      linarith
    have near := (nearestEven_near (div_nonneg positive gap.le)).2
    have fewer : nearestEven (q / spacing n) < a := by
      have cast : (nearestEven (q / spacing n) : ℚ) < a := by linarith
      exact_mod_cast cast
    unfold gridPoint
    rw [gaps]
    calc nearestEven (q / spacing n) * spacing n < a * spacing n := Nat.mul_lt_mul_of_pos_right fewer (spacing_pos n)
      _ = n := by rw [Nat.mul_comm,← steps]
  · obtain ⟨less,_⟩ := power_between same (by linarith)
    rw [Nat.floor_natCast] at less
    exact (gridPoint_le positive (power_onGrid _) less.le).trans_lt inside

theorem gridPoint_lowered (onGrid : spacing n ∣ n) (normal : 2 ^ 53 ≤ n) : gridPoint (n * (1 - 1 / 2 ^ 53)) < n := by
  obtain ⟨least,gaps⟩ := power_gaps (n := n) (by lia)
  rcases least.eq_or_lt with power | inside
  · have large : 53 ≤ n.log2 := (Nat.le_log2 (by lia)).mpr normal
    have parts : n = 2 ^ 53 * 2 ^ (n.log2 - 53) := by
      rw [← Nat.pow_add,Nat.add_sub_cancel' large,power]
    have before : (n : ℚ) * (1 - 1 / 2 ^ 53) = ((2 ^ 53 - 1) * Nat.pow 2 (n.log2 - 53) : Nat) := by
      have cast : (n : ℚ) = 2 ^ 53 * (Nat.pow 2 (n.log2 - 53) : Nat) := by exact_mod_cast parts
      rw [cast]
      push_cast
      ring
    rw [before,gridPoint_fixed (spacing_dvd_scaled (by decide))]
    calc (2 ^ 53 - 1) * Nat.pow 2 (n.log2 - 53) < 2 ^ 53 * 2 ^ (n.log2 - 53) :=
          Nat.mul_lt_mul_of_pos_right (by decide) (Nat.two_pow_pos _)
      _ = n := parts.symm
  · have above : (2 : ℚ) ^ 52 * spacing n < n := by
      rw [← gaps] at inside
      exact_mod_cast inside
    have factor : (0 : ℚ) ≤ 1 - 1 / 2 ^ 53 := by norm_num
    exact gridPoint_lt onGrid inside (by positivity) (by linarith)

-- The largest double below one and the smallest above it.
def justBelow : Binary64 := ofNat (2 ^ 53 - 1) / ofNat (2 ^ 53)
def justAbove : Binary64 := ofNat (2 ^ 53) / ofNat (2 ^ 53 - 1)

theorem justBelow_yields : justBelow.Yields (1 - 1 / 2 ^ 53) := by decide +kernel

theorem justAbove_yields : justAbove.Yields (1 + 1 / 2 ^ 52) := by decide +kernel

theorem zero_le_justBelow : 0 ≤ justBelow :=
  (value_le zero_yields.1 justBelow_yields.1).mpr (by rw [zero_yields.2,justBelow_yields.2]; norm_num)

theorem justBelow_le_one : justBelow ≤ 1 :=
  (value_le justBelow_yields.1 one_yields.1).mpr (by rw [justBelow_yields.2,one_yields.2]; norm_num)

theorem one_le_justAbove : 1 ≤ justAbove :=
  (value_le one_yields.1 justAbove_yields.1).mpr (by rw [one_yields.2,justAbove_yields.2]; norm_num)

theorem justBelow_rounds : justBelow.Rounds ((2 ^ 53 - 1 : Nat) / (2 ^ 53 : Nat)) :=
  fraction_rounds (by decide) (by decide) (by decide)

theorem justAbove_rounds : justAbove.Rounds ((2 ^ 53 : Nat) / (2 ^ 53 - 1 : Nat)) :=
  fraction_rounds (by decide) (by decide) (by decide)

section Quotient
variable (one : x.Positive) (two : y.Positive)
include one two

theorem div_positive_rounds : (x / y).Rounds (x.value / y.value) :=
  div_rounds one.1 two.1 (positive_value two).ne'

theorem zero_le_div : 0 ≤ x / y :=
  zero_rounds_value.le (div_positive_rounds one two) (div_nonneg (positive_value one).le (positive_value two).le)

theorem values_apart (less : x < y) : x.value * (2 ^ 53 : Nat) ≤ y.value * (2 ^ 53 - 1 : Nat) := by
  obtain ⟨m,mGrid,rfl,_⟩ := positive_form one
  obtain ⟨n,nGrid,rfl,_⟩ := positive_form two
  have apart := ratio_apart mGrid.1 nGrid.1 (lt_units.mp less)
  have cast : (m : ℚ) * (2 ^ 53 : Nat) ≤ n * (2 ^ 53 - 1 : Nat) := by exact_mod_cast apart
  have one := perOne_value
  rw [value_units,value_units,div_mul_eq_mul_div,div_mul_eq_mul_div]
  gcongr

theorem div_le_justBelow (less : x < y) : x / y ≤ justBelow := by
  refine (div_positive_rounds one two).le justBelow_rounds ?_
  rw [div_le_div_iff₀ (positive_value two) (by norm_num),mul_comm _ y.value]
  exact values_apart one two less

theorem justAbove_le_div (more : y < x) : justAbove ≤ x / y := by
  refine justAbove_rounds.le (div_positive_rounds one two) ?_
  rw [div_le_div_iff₀ (by norm_num) (positive_value two),mul_comm _ y.value]
  exact values_apart two one more

end Quotient

theorem units_normal {onGrid : OnGrid n} (normal : 1 / 2 ^ 1021 ≤ (finite false n onGrid).value) : 2 ^ 53 ≤ n := by
  have unit : (perOne : ℚ) = (2 ^ 53 : Nat) * 2 ^ 1021 := by
    have parts : perOne = 2 ^ 53 * 2 ^ 1021 := by rw [perOne_pow,← pow_add]
    rw [parts,Nat.cast_mul,Nat.cast_pow 2 1021,Nat.cast_ofNat]
  have some : (0 : ℚ) < 2 ^ 1021 := by positivity
  rw [value_units,unit] at normal
  generalize (2 : ℚ) ^ 1021 = part at normal some
  rw [← div_div,div_le_div_iff_of_pos_right some,le_div_iff₀ (by norm_num),one_mul] at normal
  exact_mod_cast normal

section Product
variable (flows : x.Positive)
include flows

theorem product_place {c : Binary64} {factor : ℚ} (some : 0 ≤ factor) (rounds : c.Rounds (x.value * factor)) :
    ∃ n onGrid, x = .finite false n onGrid ∧ c.place = Option.some ((min (gridPoint (n * factor)) limit : Nat) : Int) := by
  obtain ⟨n,onGrid,rfl,_⟩ := positive_form flows
  refine ⟨n,onGrid,rfl,?_⟩
  rw [value_units,div_mul_eq_mul_div] at rounds
  unfold Rounds at rounds
  rwa [roundedPlace_units (by positivity)] at rounds

theorem mul_justBelow_lt (normal : 1 / 2 ^ 1021 ≤ x.value) : x * justBelow < x := by
  have rounds := mul_rounds flows.1 justBelow_yields.1
  rw [justBelow_yields.2] at rounds
  obtain ⟨n,onGrid,rfl,placed⟩ := product_place flows (by norm_num) rounds
  have lowered := gridPoint_lowered onGrid.1 (units_normal normal)
  refine (lt_iff_place _ _).mpr ⟨_,_,placed,rfl,?_⟩
  exact Int.ofNat_lt.mpr ((Nat.min_le_left _ _).trans_lt lowered)

theorem lt_mul_justAbove (normal : 1 / 2 ^ 1021 ≤ x.value) : x < x * justAbove := by
  have rounds := mul_rounds flows.1 justAbove_yields.1
  rw [justAbove_yields.2] at rounds
  obtain ⟨n,onGrid,rfl,placed⟩ := product_place flows (by norm_num) rounds
  have raised := gridPoint_raised onGrid.1 (Nat.le_trans (by decide) (units_normal normal))
  refine (lt_iff_place _ _).mpr ⟨_,_,rfl,placed,?_⟩
  exact Int.ofNat_lt.mpr (lt_min raised onGrid.2)

end Product

theorem div_self_yields (positive : x.Positive) : (x / x).Yields 1 := by
  have rounds := div_positive_rounds positive positive
  rw [div_self (positive_value positive).ne'] at rounds
  exact rounds.exact one_yields

end LoadPacing.Binary64
