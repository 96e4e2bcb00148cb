import LoadPacing.Proofs.Binary64.Nearest

-- Rounding keeps the order and leaves every double where it is.
namespace LoadPacing

-- Two numbers no further than a half from their nearest whole ones cannot trade places.
theorem nearestEven_mono {q r : ℚ} (positive : 0 ≤ q) (most : q ≤ r) : nearestEven q ≤ nearestEven r := by
  by_contra crossed
  have next : nearestEven r + 1 ≤ nearestEven q := Nat.not_le.mp crossed
  have apart : (nearestEven r : ℚ) + 1 ≤ nearestEven q := by exact_mod_cast next
  have low := (nearestEven_near positive).2
  have high := (nearestEven_near (positive.trans most)).1
  have same : q = r := by linarith
  rw [same] at crossed
  exact crossed (Nat.le_refl _)

theorem nearestEven_whole (n : Nat) : nearestEven n = n := by
  unfold nearestEven
  rw [Nat.floor_natCast,sub_self,if_pos (by norm_num)]

namespace Binary64

-- The grid point nearest to a number of units, the grid going on beyond the limit.
def gridPoint (q : ℚ) : Nat := nearestEven (q / spacing ⌊q⌋₊) * spacing ⌊q⌋₊

theorem spacing_pos (units : Nat) : 0 < spacing units := Nat.two_pow_pos _

theorem spacing_value (units : Nat) : (0 : ℚ) < spacing units := Nat.cast_pos.mpr (spacing_pos units)

theorem log2_mono {m n : Nat} (most : m ≤ n) : m.log2 ≤ n.log2 := by
  rcases Nat.eq_zero_or_pos m with rfl | some
  · exact Nat.zero_le _
  · have nonzero := Nat.ne_of_gt some
    exact (Nat.le_log2 (Nat.ne_of_gt (Nat.lt_of_lt_of_le some most))).mpr ((Nat.log2_self_le nonzero).trans most)

theorem spacing_dvd {m n : Nat} (most : m.log2 ≤ n.log2) : spacing m ∣ spacing n :=
  Nat.pow_dvd_pow 2 (Nat.sub_le_sub_right most 52)

theorem spacing_power (units : Nat) : spacing units ∣ 2 ^ units.log2 := Nat.pow_dvd_pow 2 (Nat.sub_le _ _)

theorem power_onGrid (k : Nat) : spacing (2 ^ k) ∣ 2 ^ k := by
  have whole := spacing_power (2 ^ k)
  rwa [Nat.log2_two_pow] at whole

theorem nearest_gridPoint (num : Nat) {den : Nat} (some : 0 < den) : nearest num den = gridPoint ((num : ℚ) / den) := by
  have product := Nat.mul_pos some (spacing_pos (num / den))
  unfold nearest gridPoint
  rw [roundQuotient_nearest num product,Nat.floor_div_eq_div,Nat.cast_mul,div_div]

variable {q r : ℚ} {u : Nat}

theorem gridPoint_of_multiple (multiple : spacing ⌊q⌋₊ ∣ u) (least : u ≤ q) : u ≤ gridPoint q := by
  obtain ⟨t,rfl⟩ := multiple
  have gap := spacing_value ⌊q⌋₊
  have most : (t : ℚ) ≤ q / spacing ⌊q⌋₊ := by
    rw [le_div_iff₀ gap,mul_comm]
    exact_mod_cast least
  have nearest := nearestEven_mono (Nat.cast_nonneg t) most
  rw [nearestEven_whole] at nearest
  rw [Nat.mul_comm]
  exact Nat.mul_le_mul_right _ nearest

theorem gridPoint_le (positive : 0 ≤ q) (onGrid : spacing u ∣ u) (most : q ≤ u) : gridPoint q ≤ u := by
  have floor : ⌊q⌋₊ ≤ u := Nat.floor_le_of_le most
  have finer : spacing ⌊q⌋₊ ∣ spacing u := spacing_dvd (log2_mono floor)
  obtain ⟨t,whole⟩ := finer.trans onGrid
  have gap := spacing_value ⌊q⌋₊
  have least : q / spacing ⌊q⌋₊ ≤ (t : ℚ) := by
    rw [div_le_iff₀ gap,mul_comm]
    rw [whole] at most
    exact_mod_cast most
  have nearest := nearestEven_mono (div_nonneg positive gap.le) least
  rw [nearestEven_whole] at nearest
  unfold gridPoint
  conv_rhs => rw [whole,Nat.mul_comm]
  exact Nat.mul_le_mul_right _ nearest

theorem power_between (other : ⌊q⌋₊.log2 ≠ ⌊r⌋₊.log2) (most : q ≤ r) :
    (q : ℚ) < (2 ^ ⌊r⌋₊.log2 : Nat) ∧ ((2 ^ ⌊r⌋₊.log2 : Nat) : ℚ) ≤ r := by
  have floors : ⌊q⌋₊ ≤ ⌊r⌋₊ := Nat.floor_mono most
  have less : ⌊q⌋₊.log2 < ⌊r⌋₊.log2 := Nat.lt_of_le_of_ne (log2_mono floors) other
  have some : ⌊r⌋₊ ≠ 0 := by
    intro none
    rw [none] at less
    exact Nat.not_lt_zero _ less
  have positive : 0 ≤ r := (Nat.floor_pos.mp (Nat.pos_of_ne_zero some)).trans' zero_le_one
  have below : ⌊q⌋₊ < 2 ^ ⌊r⌋₊.log2 := Nat.lt_log2_self.trans_le (Nat.pow_le_pow_right (by decide) less)
  exact ⟨Nat.lt_of_floor_lt below,(Nat.le_floor_iff positive).mp (Nat.log2_self_le some)⟩

theorem le_gridPoint (onGrid : spacing u ∣ u) (least : u ≤ q) : u ≤ gridPoint q := by
  by_cases same : u.log2 = ⌊q⌋₊.log2
  · exact gridPoint_of_multiple ((spacing_dvd same.ge).trans onGrid) least
  · have other : ⌊(u : ℚ)⌋₊.log2 ≠ ⌊q⌋₊.log2 := by rwa [Nat.floor_natCast]
    obtain ⟨above,below⟩ := power_between other least
    have power := gridPoint_of_multiple (spacing_power ⌊q⌋₊) below
    exact (Nat.cast_lt.mp above).le.trans power

theorem gridPoint_mono (positive : 0 ≤ q) (most : q ≤ r) : gridPoint q ≤ gridPoint r := by
  by_cases same : ⌊q⌋₊.log2 = ⌊r⌋₊.log2
  · have gaps : spacing ⌊q⌋₊ = spacing ⌊r⌋₊ := by rw [spacing,same,spacing]
    have gap := spacing_value ⌊r⌋₊
    unfold gridPoint
    rw [gaps]
    exact Nat.mul_le_mul_right _ (nearestEven_mono (div_nonneg positive gap.le) (by gcongr))
  · obtain ⟨above,below⟩ := power_between same most
    exact (gridPoint_le positive (power_onGrid _) above.le).trans (gridPoint_of_multiple (spacing_power _) below)

theorem gridPoint_fixed (onGrid : spacing u ∣ u) : gridPoint u = u :=
  Nat.le_antisymm (gridPoint_le (Nat.cast_nonneg u) onGrid (le_refl _)) (le_gridPoint onGrid (le_refl _))

-- The units of the double nearest to a number that is not negative.
def magnitude (q : ℚ) : Nat := min (gridPoint (q * perOne)) limit

def roundedPlace (q : ℚ) : Int := if 0 ≤ q then magnitude q else -magnitude (-q)

theorem magnitude_mono (positive : 0 ≤ q) (most : q ≤ r) : magnitude q ≤ magnitude r := by
  have one := perOne_value
  exact min_le_min_right _ (gridPoint_mono (mul_nonneg positive one.le) (mul_le_mul_of_nonneg_right most one.le))

theorem magnitude_units (units : ℚ) : magnitude (units / perOne) = min (gridPoint units) limit := by
  unfold magnitude
  rw [div_mul_cancel₀ _ perOne_value.ne']

theorem magnitude_zero : magnitude 0 = 0 := by
  have none : gridPoint 0 = 0 := by exact_mod_cast gridPoint_fixed (Nat.dvd_zero _)
  rw [magnitude,zero_mul,none,Nat.zero_min]

theorem roundedPlace_mono (most : q ≤ r) : roundedPlace q ≤ roundedPlace r := by
  unfold roundedPlace
  split
  · rename_i positive
    rw [if_pos (positive.trans most)]
    exact_mod_cast magnitude_mono positive most
  · rename_i negative
    split
    · omega
    · rename_i alike
      have turned := magnitude_mono (by linarith : 0 ≤ -r) (neg_le_neg most)
      omega

theorem roundedPlace_neg (q : ℚ) : roundedPlace (-q) = -roundedPlace q := by
  unfold roundedPlace
  rcases lt_trichotomy q 0 with negative | rfl | positive
  · rw [if_pos (by linarith),if_neg (not_le_of_gt negative),neg_neg]
  · rw [neg_zero,magnitude_zero]
    rfl
  · rw [if_neg (by linarith),if_pos positive.le,neg_neg]

theorem roundedPlace_units {units : ℚ} (positive : 0 ≤ units) :
    roundedPlace (units / perOne) = (min (gridPoint units) limit : Nat) := by
  unfold roundedPlace
  rw [if_pos (div_nonneg positive perOne_value.le),magnitude_units]

-- The double is the one nearest to this number.
def Rounds (x : Binary64) (q : ℚ) : Prop := x.place = some (roundedPlace q)

theorem Rounds.le {x y : Binary64} (one : x.Rounds q) (two : y.Rounds r) (most : q ≤ r) : x ≤ y :=
  (le_iff_place x y).mpr ⟨_,_,one,two,roundedPlace_mono most⟩

theorem rounded_rounds (negative : Bool) (num : Nat) {den : Nat} (some : 0 < den) :
    (rounded negative num den).Rounds ((if negative then -1 else 1) * (num / den / perOne)) := by
  have place : (rounded negative num den).place =
      Option.some (if negative then -((min (nearest num den) limit : Nat) : Int) else (min (nearest num den) limit : Nat)) := by
    unfold rounded
    split
    · rename_i inside
      rw [Nat.min_eq_left inside.le]
      rfl
    · rename_i beyond
      rw [Nat.min_eq_right (Nat.not_lt.mp beyond)]
      rfl
  have units := roundedPlace_units (div_nonneg (Nat.cast_nonneg num) (Nat.cast_nonneg den) : (0 : ℚ) ≤ num / den)
  unfold Rounds
  rw [place,nearest_gridPoint num some]
  cases negative with
  | false => rw [if_neg (by decide),if_neg (by decide),one_mul,units]
  | true => rw [if_pos rfl,if_pos rfl,neg_one_mul,roundedPlace_neg,units]

theorem rounded_signed (units : Int) : (rounded (units < 0) units.natAbs 1).Rounds (units / perOne) := by
  have rounds := rounded_rounds (units < 0) units.natAbs Nat.one_pos
  rw [Nat.cast_natAbs,Nat.cast_one,div_one,← mul_div_assoc] at rounds
  have same : (if decide (units < 0) = true then -1 else 1) * ((|units| : Int) : ℚ) = units := by
    by_cases negative : units < 0
    · rw [if_pos (decide_eq_true negative),abs_of_neg negative]
      push_cast
      ring
    · rw [if_neg (by simpa using negative),abs_of_nonneg (Int.not_lt.mp negative),one_mul]
  rwa [same] at rounds

variable {x y : Binary64}

theorem finite_form (finite : x.IsFinite) : ∃ negative units onGrid, x = .finite negative units onGrid := by
  cases x with
  | nan | infinite => cases finite
  | finite negative units onGrid => exact ⟨negative,units,onGrid,rfl⟩

theorem finite_rounds (finite : x.IsFinite) : x.Rounds x.value := by
  obtain ⟨negative,units,onGrid,rfl⟩ := finite_form finite
  have place := roundedPlace_units (Nat.cast_nonneg units : (0 : ℚ) ≤ units)
  rw [gridPoint_fixed onGrid.1,Nat.min_eq_left onGrid.2.le] at place
  cases negative with
  | false =>
    have same : (Binary64.finite false units onGrid).value = units / perOne := by simp [value,signed]
    rw [Rounds,same,place]
    rfl
  | true =>
    have same : (Binary64.finite true units onGrid).value = -(units / perOne) := by simp [value,signed,neg_div]
    rw [Rounds,same,roundedPlace_neg,place]
    rfl

theorem Rounds.yields (rounds : x.Rounds q) (same : y.Rounds q) (exact : y.Yields r) : x.Yields r := by
  obtain ⟨finite,value⟩ := exact
  obtain ⟨a,placed,above,below⟩ := place_finite finite
  have place : x.place = some a := (rounds.trans same.symm).trans placed
  have xFinite := finite_of_place place above below
  obtain ⟨a',placed',xValue⟩ := place_value xFinite
  obtain ⟨b',placed'',yValue⟩ := place_value finite
  rw [place] at placed'
  rw [placed] at placed''
  cases placed'
  cases placed''
  exact ⟨xFinite,xValue.trans (yValue.symm.trans value)⟩

theorem Rounds.exact (rounds : x.Rounds q) (exact : y.Yields q) : x.Yields q := by
  have same := finite_rounds exact.1
  rw [exact.2] at same
  exact rounds.yields same exact

theorem zero_rounds (negative : Bool) : (zero negative).Rounds 0 := by
  have rounds := finite_rounds (x := zero negative) trivial
  have none : (zero negative).value = 0 := by cases negative <;> simp [zero,value,signed]
  rwa [none] at rounds

theorem ofNat_rounds (n : Nat) : (ofNat n).Rounds n := by
  have rounds := rounded_rounds false (n * perOne) Nat.one_pos
  have one := perOne_value
  rw [if_neg (by decide),one_mul,Nat.cast_mul,Nat.cast_one,div_one,mul_div_assoc,div_self one.ne',mul_one] at rounds
  exact rounds

theorem add_rounds (xFinite : x.IsFinite) (yFinite : y.IsFinite) : (x + y).Rounds (x.value + y.value) := by
  obtain ⟨a,m,mGrid,rfl⟩ := finite_form xFinite
  obtain ⟨b,n,nGrid,rfl⟩ := finite_form yFinite
  show (add _ _).Rounds _
  unfold add value
  dsimp only
  rw [← add_div,← Int.cast_add]
  generalize signed a m + signed b n = sum
  split
  · rename_i none
    rw [none,Int.cast_zero,zero_div]
    exact zero_rounds _
  · exact rounded_signed sum

theorem mul_rounds (xFinite : x.IsFinite) (yFinite : y.IsFinite) : (x * y).Rounds (x.value * y.value) := by
  obtain ⟨a,m,mGrid,rfl⟩ := finite_form xFinite
  obtain ⟨b,n,nGrid,rfl⟩ := finite_form yFinite
  have rounds := rounded_rounds (a ^^ b) (m * n) perOne_pos
  have same : (if (a ^^ b) = true then -1 else 1) * (((m * n : Nat) : ℚ) / perOne / perOne) =
      (signed a m : ℚ) / perOne * ((signed b n : ℚ) / perOne) := by
    cases a <;> cases b <;> simp [signed] <;> ring
  rw [same] at rounds
  exact rounds

theorem div_rounds (xFinite : x.IsFinite) (yFinite : y.IsFinite) (some : y.value ≠ 0) :
    (x / y).Rounds (x.value / y.value) := by
  obtain ⟨a,m,mGrid,rfl⟩ := finite_form xFinite
  obtain ⟨b,n,nGrid,rfl⟩ := finite_form yFinite
  have nonzero : n ≠ 0 := by
    rintro rfl
    exact some (by cases b <;> simp [value,signed])
  have rounds := rounded_rounds (a ^^ b) (m * perOne) (Nat.pos_of_ne_zero nonzero)
  have one := perOne_value
  have same : (if (a ^^ b) = true then -1 else 1) * (((m * perOne : Nat) : ℚ) / n / perOne) =
      (signed a m : ℚ) / perOne / ((signed b n : ℚ) / perOne) := by
    have den : (n : ℚ) ≠ 0 := Nat.cast_ne_zero.mpr nonzero
    cases a <;> cases b <;> simp [signed] <;> field_simp
  rw [same] at rounds
  show (div _ _).Rounds _
  unfold div
  dsimp only
  rw [if_neg nonzero]
  exact rounds

theorem negate_value (x : Binary64) : (-x).value = -x.value := by
  cases x with
  | nan | infinite => exact neg_zero.symm
  | finite negative units onGrid =>
    show (finite (!negative) units onGrid).value = _
    cases negative <;> simp [value,signed,neg_div]

theorem negate_finite (finite : x.IsFinite) : (-x).IsFinite := by
  obtain ⟨negative,units,onGrid,rfl⟩ := finite_form finite
  trivial

theorem negate_yields (exact : x.Yields q) : (-x).Yields (-q) :=
  ⟨negate_finite exact.1,by rw [negate_value,exact.2]⟩

theorem Rounds.negate (rounds : x.Rounds q) : (-x).Rounds (-q) := by
  have place : (-x).place = x.place.map fun units => -units := by
    show (Binary64.negate x).place = _
    cases x with
    | nan => rfl
    | infinite negative | finite negative units onGrid =>
      cases negative <;> simp only [Binary64.negate,Binary64.place] <;> simp
  unfold Rounds at rounds ⊢
  rw [place,rounds,roundedPlace_neg]
  rfl

theorem sub_rounds (xFinite : x.IsFinite) (yFinite : y.IsFinite) : (x - y).Rounds (x.value - y.value) := by
  have rounds := add_rounds xFinite (negate_finite yFinite)
  rw [negate_value,← sub_eq_add_neg] at rounds
  exact rounds

theorem perOne_power : ∃ k, perOne = Nat.pow 2 k := by
  refine ⟨1074,?_⟩
  unfold perOne
  rfl

theorem ofNat_yields {n : Nat} (small : n ≤ 2 ^ 53) : (ofNat n).Yields n := by
  have onGrid : spacing (n * perOne) ∣ n * perOne := by
    obtain ⟨k,unit⟩ := perOne_power
    rw [unit]
    exact spacing_dvd_scaled small
  have inside : n * perOne < limit := by
    have below : 2 ^ 53 * perOne < limit := by
      rw [perOne_pow,limit_pow,← pow_add]
      exact pow_lt_pow_right₀ (by norm_num) (by norm_num)
    exact (Nat.mul_le_mul_right _ small).trans_lt below
  have exact : nearest (n * perOne) 1 = n * perOne := by
    rw [nearest_gridPoint _ Nat.one_pos,Nat.cast_one,div_one]
    exact gridPoint_fixed onGrid
  have one := perOne_value
  unfold ofNat rounded
  rw [dif_pos (exact.trans_lt inside)]
  refine ⟨trivial,?_⟩
  simp only [value,signed,exact]
  push_cast
  exact mul_div_cancel_right₀ _ one.ne'

theorem ofNat_positive {n : Nat} (some : 0 < n) (small : n ≤ 2 ^ 53) : (ofNat n).Positive := by
  have exact := ofNat_yields small
  exact positive_of_value exact.1 (by rw [exact.2]; exact_mod_cast some)

theorem ofNat_skipped : (ofNat (2 ^ 53 + 1)).Yields (2 ^ 53) := by decide +kernel

theorem ofNat_saturates (n : Nat) : (ofNat (min n (2 ^ 53 + 1))).Yields (min n (2 ^ 53) : Nat) := by
  by_cases small : n ≤ 2 ^ 53
  · rw [Nat.min_eq_left (small.trans (Nat.le_succ _)),Nat.min_eq_left small]
    exact ofNat_yields small
  · have large := Nat.not_le.mp small
    rw [Nat.min_eq_right large,Nat.min_eq_right large.le,Nat.cast_pow,Nat.cast_ofNat]
    exact ofNat_skipped

theorem Rounds.number (rounds : x.Rounds q) : x ≤ .infinite false := by
  have most : roundedPlace q ≤ limit := by
    unfold roundedPlace magnitude
    split <;> omega
  exact (le_iff_place _ _).mpr ⟨_,_,rounds,rfl,most⟩

theorem above_cases (finite : x.IsFinite) (most : x ≤ y) :
    y = .infinite false ∨ y.IsFinite ∧ x.value ≤ y.value := by
  obtain ⟨a,b,xPlace,yPlace,ab⟩ := (le_iff_place x y).mp most
  obtain ⟨a',xPlace',above,_⟩ := place_finite finite
  rw [xPlace] at xPlace'
  cases xPlace'
  cases y with
  | nan => cases yPlace
  | infinite negative =>
    cases negative with
    | false => exact .inl rfl
    | true =>
      have least : b = -limit := (Option.some.inj yPlace).symm
      omega
  | finite negative units onGrid =>
    have yFinite : (Binary64.finite negative units onGrid).IsFinite := trivial
    exact .inr ⟨yFinite,(value_le finite yFinite).mp most⟩

variable {a b : Binary64}

theorem add_le_add (aFinite : a.IsFinite) (bFinite : b.IsFinite) (one : a ≤ x) (two : b ≤ y) : a + b ≤ x + y := by
  have rounds := add_rounds aFinite bFinite
  rcases above_cases aFinite one with rfl | ⟨xFinite,xMost⟩
  · rcases above_cases bFinite two with rfl | ⟨yFinite,_⟩
    · exact rounds.number
    · obtain ⟨_,_,_,rfl⟩ := finite_form yFinite
      exact rounds.number
  · rcases above_cases bFinite two with rfl | ⟨yFinite,yMost⟩
    · obtain ⟨_,_,_,rfl⟩ := finite_form xFinite
      exact rounds.number
    · exact rounds.le (add_rounds xFinite yFinite) (by linarith)

theorem le_trans {z : Binary64} (one : x ≤ y) (two : y ≤ z) : x ≤ z := by
  obtain ⟨a,b,xPlace,yPlace,ab⟩ := (le_iff_place x y).mp one
  obtain ⟨b',c,yPlace',zPlace,bc⟩ := (le_iff_place y z).mp two
  rw [yPlace] at yPlace'
  cases yPlace'
  exact (le_iff_place x z).mpr ⟨a,c,xPlace,zPlace,ab.trans bc⟩

theorem Yields.rounds (exact : x.Yields q) : x.Rounds q := by
  obtain ⟨finite,rfl⟩ := exact
  exact finite_rounds finite

theorem zero_rounds_value : (0 : Binary64).Rounds 0 := zero_yields.rounds

theorem nonneg_value (finite : x.IsFinite) (least : 0 ≤ x) : 0 ≤ x.value := by
  have values := (value_le zero_yields.1 finite).mp least
  rwa [zero_yields.2] at values

theorem Rounds.nonneg (rounds : x.Rounds q) (finite : x.IsFinite) (least : 0 ≤ q) : 0 ≤ x.value :=
  nonneg_value finite (zero_rounds_value.le rounds least)

theorem Rounds.between {low high : ℚ} (rounds : x.Rounds q) (one : a.Rounds low) (two : b.Rounds high)
    (aFinite : a.IsFinite) (bFinite : b.IsFinite) (least : low ≤ q) (most : q ≤ high) :
    x.IsFinite ∧ a.value ≤ x.value ∧ x.value ≤ b.value := by
  have above := one.le rounds least
  have below := rounds.le two most
  have finite := finite_of_between aFinite bFinite above below
  exact ⟨finite,(value_le aFinite finite).mp above,(value_le finite bFinite).mp below⟩

theorem le_add (finite : a.IsFinite) (most : a ≤ x) (positive : 0 ≤ y) : a ≤ x + y := by
  have sum := add_rounds finite zero_yields.1
  rw [zero_yields.2,add_zero] at sum
  exact le_trans ((finite_rounds finite).le sum le_rfl) (add_le_add finite zero_yields.1 most positive)

theorem positive_form (positive : x.Positive) : ∃ units onGrid, x = .finite false units onGrid ∧ 0 < units := by
  have above := positive_value positive
  obtain ⟨negative,units,onGrid,rfl⟩ := finite_form positive.1
  have signed_pos : (0 : ℚ) < signed negative units := by
    rw [value,div_pos_iff_of_pos_right perOne_value] at above
    exact above
  cases negative with
  | false =>
    have some : (0 : ℚ) < units := by simpa [signed] using signed_pos
    exact ⟨units,onGrid,rfl,Nat.cast_pos.mp some⟩
  | true =>
    have below : (signed true units : ℚ) ≤ 0 := by simp [signed]
    exact absurd signed_pos (not_lt_of_ge below)

theorem infinite_mul (flows : x.Positive) : infinite false * x = infinite false := by
  obtain ⟨units,onGrid,rfl,some⟩ := positive_form flows
  exact if_neg some.ne'

theorem mul_le_mul_right (finite : a.IsFinite) (most : a ≤ x) (flows : y.Positive) : a * y ≤ x * y := by
  have positive := positive_value flows
  have rounds := mul_rounds finite flows.1
  rcases above_cases finite most with rfl | ⟨xFinite,xMost⟩
  · rw [infinite_mul flows]
    exact rounds.number
  · exact rounds.le (mul_rounds xFinite flows.1) (mul_le_mul_of_nonneg_right xMost positive.le)

theorem mul_nonneg (most : 0 ≤ x) (flows : y.Positive) : 0 ≤ x * y := by
  have product := mul_rounds zero_yields.1 flows.1
  rw [zero_yields.2,zero_mul] at product
  exact le_trans (zero_rounds_value.le product le_rfl) (mul_le_mul_right zero_yields.1 most flows)

theorem le_min (one : a ≤ x) (two : a ≤ y) : a ≤ min x y := by
  show a ≤ smaller x y
  unfold smaller
  split
  · exact two
  · split
    · exact one
    · split
      · exact two
      · exact one

theorem min_of_le (most : x ≤ y) : min x y = x := by
  have below : ¬ y < x := fun less => not_le_of_lt less most
  show smaller x y = x
  unfold smaller
  rw [if_neg (number_of_le most).1,if_neg below,ite_self]

theorem fraction_rounds {m n : Nat} (mSmall : m ≤ 2 ^ 53) (nSmall : n ≤ 2 ^ 53) (some : n ≠ 0) :
    (ofNat m / ofNat n).Rounds (m / n) := by
  have one := ofNat_yields mSmall
  have two := ofNat_yields nSmall
  have rounds := div_rounds one.1 two.1 (by rw [two.2]; exact_mod_cast some)
  rwa [one.2,two.2] at rounds

theorem toSeconds_zero : Nanos.toSeconds 0 = 0 := by decide +kernel

theorem toSeconds_nonneg (d : Nanos) : 0 ≤ Nanos.toSeconds d := by
  have whole : 0 ≤ ofNat (d / Nanos.perSecond) := zero_rounds_value.le (ofNat_rounds _) (Nat.cast_nonneg _)
  have below : d % Nanos.perSecond < Nanos.perSecond := Nat.mod_lt d (by decide)
  have small : Nanos.perSecond ≤ 2 ^ 53 := by decide
  have rest := fraction_rounds (below.le.trans small) small (by decide)
  have fraction : 0 ≤ ofNat (d % Nanos.perSecond) / ofNat Nanos.perSecond :=
    zero_rounds_value.le rest (div_nonneg (Nat.cast_nonneg _) (Nat.cast_nonneg _))
  exact le_add zero_yields.1 whole fraction

end Binary64
end LoadPacing
