import LoadPacing.Binary64.Basic

-- The shortest decimal that reads back as a magnitude, and of two such neighbours the nearer one.
namespace LoadPacing.Binary64

structure Decimal where
  coefficient : Nat
  exponent : Int
  deriving DecidableEq

-- The halfway points belong to a magnitude iff its significand is even.
def ReadsBack (units point scale : Nat) : Prop :=
  let low := (2 * units - spacing (units - 1)) * scale
  let high := (2 * units + spacing units) * scale
  if units / spacing units % 2 = 0 then low ≤ 2 * point ∧ 2 * point ≤ high
  else low < 2 * point ∧ 2 * point < high

instance (units point scale : Nat) : Decidable (ReadsBack units point scale) := by
  unfold ReadsBack
  dsimp only
  split <;> infer_instance

inductive Halfway where
  | up | toEven
  deriving DecidableEq

def onDecimalGrid (halfway : Halfway) (units step scale : Nat) : Option Nat :=
  let below := units * scale / step
  let rest := units * scale % step
  let lower := ReadsBack units (below * step) scale
  let upper := ReadsBack units ((below + 1) * step) scale
  let nearer := step < 2 * rest ∨ (step = 2 * rest ∧ (halfway = .up ∨ below % 2 = 1))
  if upper ∧ (¬ lower ∨ nearer) then some (below + 1)
  else if lower then some below
  else none

def decimalAt (halfway : Halfway) (units : Nat) : Int → Option Nat
  | .ofNat e => onDecimalGrid halfway units (Nat.pow 10 e * perOne) 1
  | .negSucc e => onDecimalGrid halfway units perOne (Nat.pow 10 (e + 1))

-- Grids are tried from the coarsest on; a grid of 10^-342 is finer than one unit.
def searchDecimal (halfway : Halfway) (units : Nat) : Nat → Int → Decimal
  | 0, exponent => ⟨0,exponent⟩
  | grids + 1, exponent =>
    match decimalAt halfway units exponent with
    | some coefficient => ⟨coefficient,exponent⟩
    | none => searchDecimal halfway units grids (exponent - 1)

def shortest (halfway : Halfway) (units : Nat) : Decimal :=
  let top := (units / perOne).log2 / 3 + 1
  searchDecimal halfway units (top + 343) top

end LoadPacing.Binary64
