-- Doubles by their exact values: a finite magnitude is a whole number of units of 2^-1074, and results are rounded
-- once, to the nearest grid point, a half going to the even neighbour.
namespace LoadPacing

namespace Binary64

@[irreducible] def perOne : Nat := Nat.pow 2 1074

-- The units in 2^1024, the first magnitude that is no longer finite.
@[irreducible] def limit : Nat := Nat.pow 2 2098

theorem perOne_pos : 0 < perOne := by unfold perOne; apply Nat.two_pow_pos

theorem limit_pos : 0 < limit := by unfold limit; apply Nat.two_pow_pos

-- The gap between neighbouring doubles from this magnitude on.
def spacing (units : Nat) : Nat := Nat.pow 2 (units.log2 - 52)

def OnGrid (units : Nat) : Prop := spacing units ∣ units ∧ units < limit

instance (units : Nat) : Decidable (OnGrid units) := inferInstanceAs (Decidable (_ ∧ _))

end Binary64

inductive Binary64 where
  | nan
  | infinite (negative : Bool)
  | finite (negative : Bool) (units : Nat) (onGrid : Binary64.OnGrid units)
  deriving DecidableEq

namespace Binary64

def roundQuotient (num den : Nat) : Nat :=
  if 2 * (num % den) < den then num / den
  else if den < 2 * (num % den) then num / den + 1
  else num / den + num / den % 2

def nearest (num den : Nat) : Nat :=
  roundQuotient num (den * spacing (num / den)) * spacing (num / den)

theorem spacing_dvd_scaled {m k : Nat} (small : m ≤ Nat.pow 2 53) : spacing (m * Nat.pow 2 k) ∣ m * Nat.pow 2 k := by
  unfold spacing
  by_cases zero : m = 0
  · simp [zero]
  have nonzero : m * Nat.pow 2 k ≠ 0 := Nat.mul_ne_zero zero (Nat.ne_of_gt (Nat.two_pow_pos k))
  rcases Nat.lt_or_eq_of_le small with less | rfl
  · have bound : (m * Nat.pow 2 k).log2 < 53 + k := by
      rw [Nat.log2_lt nonzero,Nat.pow_add]
      exact Nat.mul_lt_mul_of_pos_right less (Nat.two_pow_pos k)
    exact Nat.dvd_trans (Nat.pow_dvd_pow 2 (by omega)) (Nat.dvd_mul_left _ _)
  · show 2 ^ ((2 ^ 53 * 2 ^ k).log2 - 52) ∣ 2 ^ 53 * 2 ^ k
    rw [← Nat.pow_add,Nat.log2_two_pow]
    exact Nat.pow_dvd_pow 2 (by omega)

theorem roundQuotient_le (num den : Nat) : roundQuotient num den ≤ num / den + 1 := by
  unfold roundQuotient
  split
  · omega
  · split <;> omega

theorem div_spacing_lt (n : Nat) : n / spacing n < Nat.pow 2 53 := by
  show n / 2 ^ (n.log2 - 52) < 2 ^ 53
  rw [Nat.div_lt_iff_lt_mul (Nat.two_pow_pos _),← Nat.pow_add]
  exact Nat.lt_of_lt_of_le Nat.lt_log2_self (Nat.pow_le_pow_right (by decide) (by omega))

theorem nearest_spaced (num den : Nat) : spacing (nearest num den) ∣ nearest num den := by
  have small : roundQuotient num (den * spacing (num / den)) ≤ Nat.pow 2 53 := by
    have quotient := roundQuotient_le num (den * spacing (num / den))
    rw [← Nat.div_div_eq_div_mul] at quotient
    have := div_spacing_lt (num / den)
    omega
  exact spacing_dvd_scaled small

def rounded (negative : Bool) (num den : Nat) : Binary64 :=
  if inside : nearest num den < limit then
    .finite negative (nearest num den) ⟨nearest_spaced num den,inside⟩
  else .infinite negative

def place : Binary64 → Option Int
  | nan => none
  | infinite negative => some (if negative then -(limit : Int) else limit)
  | finite negative units _ => some (if negative then -(units : Int) else units)

def Less (x y : Binary64) : Prop :=
  match x.place, y.place with
  | some a, some b => a < b
  | _, _ => False

def AtMost (x y : Binary64) : Prop :=
  match x.place, y.place with
  | some a, some b => a ≤ b
  | _, _ => False

instance : LT Binary64 := ⟨Less⟩
instance : LE Binary64 := ⟨AtMost⟩

instance (x y : Binary64) : Decidable (x < y) := by
  show Decidable (Less x y)
  unfold Less
  split <;> infer_instance

instance (x y : Binary64) : Decidable (x ≤ y) := by
  show Decidable (AtMost x y)
  unfold AtMost
  split <;> infer_instance

def IsFinite : Binary64 → Prop
  | finite _ _ _ => True
  | _ => False

instance (x : Binary64) : Decidable x.IsFinite := by
  unfold IsFinite
  split <;> infer_instance

def zero (negative : Bool) : Binary64 := .finite negative 0 ⟨Nat.dvd_zero _,limit_pos⟩

def ofNat (n : Nat) : Binary64 := rounded false (n * perOne) 1

instance (n : Nat) : OfNat Binary64 n := ⟨ofNat n⟩

def Positive (x : Binary64) : Prop := x.IsFinite ∧ 0 < x

instance (x : Binary64) : Decidable x.Positive := inferInstanceAs (Decidable (_ ∧ _))

end Binary64
end LoadPacing
