import LoadPacing.Proofs.Binary64.Neighbours
import Mathlib.Algebra.Order.Floor.Ring

-- What a double lacks to one is its own complement, so one taken away and put back leaves that as it was.
namespace LoadPacing.Binary64

variable {x y : Binary64} {q : ℚ} {m n : Nat}

theorem part_yields (onGrid : OnGrid n) (multiple : spacing n ∣ m) (most : m ≤ n) :
    ∃ part : Binary64, part.Yields (m / perOne) :=
  ⟨.finite false m ⟨(spacing_dvd (log2_mono most)).trans multiple,most.trans_lt onGrid.2⟩,trivial,value_units _⟩

theorem spacing_dvd_perOne (less : n < 2 ^ 53 * perOne) : spacing n ∣ perOne := by
  rcases Nat.eq_zero_or_pos n with rfl | some
  · exact Nat.one_dvd _
  obtain ⟨k,unit⟩ := perOne_power
  rw [unit] at less ⊢
  have small : n.log2 < 53 + k := by
    rw [Nat.log2_lt some.ne',Nat.pow_add]
    exact less
  exact Nat.pow_dvd_pow 2 (by lia)

theorem one_sub_exact (finite : x.IsFinite) (least : 1 / 2 ≤ x.value) (most : x.value ≤ 2 ^ 53) :
    ∃ difference : Binary64, difference.Yields (1 - x.value) := by
  have unit := perOne_value
  obtain ⟨n,onGrid,rfl,some⟩ := positive_form (positive_of_value finite (by linarith))
  rw [value_units] at least most ⊢
  rw [div_le_iff₀ unit] at most
  rw [le_div_iff₀ unit] at least
  have whole : (1 : ℚ) = perOne / perOne := (div_self unit.ne').symm
  rcases (show n ≤ 2 ^ 53 * perOne by exact_mod_cast most).lt_or_eq with less | top
  · have divides := spacing_dvd_perOne less
    rcases Nat.le_total n perOne with below | above
    · have half : perOne ≤ 2 * n := by
        have cast : (perOne : ℚ) ≤ 2 * n := by linarith
        exact_mod_cast cast
      obtain ⟨part,yields⟩ := part_yields onGrid (Nat.dvd_sub divides onGrid.1) (by lia : perOne - n ≤ n)
      rw [Nat.cast_sub below,sub_div,← whole] at yields
      exact ⟨part,yields⟩
    · obtain ⟨part,yields⟩ := part_yields onGrid (Nat.dvd_sub onGrid.1 divides) (Nat.sub_le n perOne)
      rw [Nat.cast_sub above,sub_div,← whole] at yields
      have turned := negate_yields yields
      rw [neg_sub] at turned
      exact ⟨-part,turned⟩
  · have turned := negate_yields (ofNat_yields (n := 2 ^ 53 - 1) (by decide))
    have same : (1 : ℚ) - n / perOne = -(2 ^ 53 - 1 : Nat) := by
      rw [top,Nat.cast_mul,mul_div_assoc,← whole]
      norm_num
    rw [same]
    exact ⟨_,turned⟩

theorem one_sub_least (finite : x.IsFinite) (below : x.value < 1) : 1 / 2 ^ 53 ≤ 1 - x.value := by
  rcases le_or_gt x.value 0 with negative | above
  · linarith
  · have unit := one_positive
    have positive := positive_of_value finite above
    have less : x < 1 := by
      by_contra notLess
      exact (below_one finite).mpr below (le_of_not_lt (finite_ne_nan unit.1) (finite_ne_nan finite) notLess)
    have apart := values_apart positive unit less
    rw [one_yields.2] at apart
    push_cast at apart
    linarith

theorem whole_value (finite : x.IsFinite) (large : 2 ^ 53 ≤ x.value) : ∃ whole : Nat, x.value = whole := by
  have unit := perOne_value
  obtain ⟨n,onGrid,rfl,some⟩ := positive_form (positive_of_value finite (by linarith))
  rw [value_units,le_div_iff₀ unit] at large
  have least : 2 ^ 53 * perOne ≤ n := by exact_mod_cast large
  have divides : perOne ∣ n := by
    obtain ⟨k,power⟩ := perOne_power
    rw [power] at least ⊢
    have high : 53 + k ≤ n.log2 := by
      rw [Nat.le_log2 some.ne',Nat.pow_add]
      exact least
    have wide : Nat.pow 2 k ∣ spacing n := Nat.pow_dvd_pow 2 (by lia)
    exact wide.trans onGrid.1
  obtain ⟨whole,parts⟩ := divides
  refine ⟨whole,?_⟩
  rw [value_units,parts,Nat.cast_mul,mul_div_cancel_left₀ _ unit.ne']

theorem fract_taken (finite : x.IsFinite) (least : 1 ≤ x.value) :
    (x - 1).IsFinite ∧ Int.fract (x - 1).value = Int.fract x.value := by
  have one := one_yields
  have taken := sub_rounds finite one.1
  rw [one.2] at taken
  rcases le_or_gt x.value (2 ^ 53) with small | large
  · obtain ⟨difference,yields⟩ := one_sub_exact finite (by linarith) small
    have turned := negate_yields yields
    rw [neg_sub] at turned
    have exact := taken.exact turned
    rw [exact.2,Int.fract_sub_one]
    exact ⟨exact.1,rfl⟩
  · obtain ⟨whole,same⟩ := whole_value finite large.le
    have top : (ofNat (2 ^ 53)).Yields (2 ^ 53) := by exact_mod_cast ofNat_yields (le_refl (2 ^ 53))
    have next : 2 ^ 53 ≤ x.value - 1 := by
      rw [same] at large ⊢
      have more : 2 ^ 53 + 1 ≤ whole := by exact_mod_cast large
      have cast : (2 ^ 53 : ℚ) + 1 ≤ whole := by exact_mod_cast more
      linarith
    obtain ⟨takenFinite,above,_⟩ :=
      taken.between top.rounds (finite_rounds finite) top.1 finite next (by linarith)
    rw [top.2] at above
    obtain ⟨rest,left⟩ := whole_value takenFinite above
    rw [same,left,Int.fract_natCast,Int.fract_natCast]
    exact ⟨takenFinite,rfl⟩

-- One taken from a double and put back.
def restored (x : Binary64) : Binary64 := x - 1 + 1

structure Restored (x : Binary64) : Prop where
  finite : x.IsFinite
  below : x.value < 1
  same : x.restored = x
  -- Also for a zero, whose sign the addition may change.
  plain : x + 0 = x

section Restore
variable (finite : x.IsFinite) (below : x.value < 1) (deep : -(2 ^ 53) ≤ x.value)
include finite below deep

-- What is taken away with the one is what the double lacks, however that is rounded.
theorem one_sub_opposite : ∃ lacked : ℚ, (1 - x).Yields lacked ∧ (x - 1).Yields (-lacked) ∧ lacked ≤ 2 ^ 53 := by
  have one := one_yields
  have difference := sub_rounds one.1 finite
  have taken := sub_rounds finite one.1
  rw [one.2] at difference taken
  have deepest := ofNat_skipped
  obtain ⟨lackedFinite,_,most⟩ := difference.between zero_yields.rounds (ofNat_rounds (2 ^ 53 + 1)) zero_yields.1 deepest.1
    (by linarith) (by push_cast; linarith)
  rw [deepest.2] at most
  have opposite := difference.negate
  rw [neg_sub] at opposite
  exact ⟨_,⟨lackedFinite,rfl⟩,taken.yields opposite (negate_yields ⟨lackedFinite,rfl⟩),most⟩

theorem restored_above (half : 1 / 2 ≤ x.value) : restored x = x := by
  have one := one_yields
  obtain ⟨lacked,difference,taken,_⟩ := one_sub_opposite finite below deep
  obtain ⟨exact,yields⟩ := one_sub_exact finite half (by linarith)
  have missing := sub_rounds one.1 finite
  rw [one.2] at missing
  have same : lacked = 1 - x.value := difference.2.symm.trans (missing.exact yields).2
  have sum := add_rounds taken.1 one.1
  rw [taken.2,one.2,same,neg_sub,sub_add_cancel] at sum
  have back := sum.exact ⟨finite,rfl⟩
  exact (eq_of_value finite back.1 (by linarith) back.2.symm).symm

theorem restored_below (half : x.value < 1 / 2) : (restored x).Restored ∧ 1 - restored x = 1 - x := by
  have one := one_yields
  obtain ⟨lacked,difference,taken,most⟩ := one_sub_opposite finite below deep
  have least : 1 / 2 ≤ lacked := by
    have halved : ((1 : Binary64) / 2).Yields (1 / 2) := by decide +kernel
    have missing := sub_rounds one.1 finite
    rw [one.2] at missing
    have order := (value_le halved.1 difference.1).mp (halved.rounds.le missing (by linarith))
    rwa [halved.2,difference.2] at order
  have some : lacked ≠ 0 := by linarith
  obtain ⟨exact,yields⟩ := one_sub_exact difference.1 (by rwa [difference.2]) (by rwa [difference.2])
  rw [difference.2] at yields
  have sum := add_rounds taken.1 one.1
  rw [taken.2,one.2,neg_add_eq_sub] at sum
  have back : (restored x).Yields (1 - lacked) := sum.exact yields
  have again := sub_rounds one.1 back.1
  rw [one.2,back.2,sub_sub_cancel] at again
  have lacks := again.exact difference
  have retaken := sub_rounds back.1 one.1
  rw [one.2,back.2,sub_sub_cancel_left] at retaken
  have took := retaken.exact taken
  have sameTaken : restored x - 1 = x - 1 :=
    eq_of_value took.1 taken.1 (by rw [took.2]; exact neg_ne_zero.mpr some) (took.2.trans taken.2.symm)
  have sameLacks : 1 - restored x = 1 - x :=
    eq_of_value lacks.1 difference.1 (by rw [lacks.2]; exact some) (lacks.2.trans difference.2.symm)
  refine ⟨⟨back.1,by rw [back.2]; linarith,?_,?_⟩,sameLacks⟩
  · show restored x - 1 + 1 = restored x
    rw [sameTaken,restored]
  · by_cases zero : (restored x).value = 0
    · have owed : (x - 1).value = (-1 : Binary64).value := by
        have unit : (-1 : Binary64).value = -1 := (negate_yields one_yields).2
        rw [taken.2,unit]
        linarith [back.2.symm.trans zero]
      rw [restored,eq_of_value taken.1 (negate_finite one.1) (by rw [taken.2]; exact neg_ne_zero.mpr some) owed]
      decide +kernel
    · exact add_zero_exact back.1 zero

theorem restored_lacks : (restored x).Restored ∧ 1 - restored x = 1 - x := by
  rcases le_or_gt (1 / 2) x.value with above | under
  · have same := restored_above finite below deep above
    rw [same]
    exact ⟨⟨finite,below,same,add_zero_exact finite (by linarith)⟩,rfl⟩
  · exact restored_below finite below deep under

end Restore

-- At minus a third the first restoring costs the last bits, and changes nothing else.
example : restored (-(1 / 3)) ≠ -(1 / 3) ∧ 1 - restored (-(1 / 3)) = 1 - -(1 / 3) := by decide +kernel

end LoadPacing.Binary64
