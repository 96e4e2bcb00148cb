import LoadPacing.Binary64.Basic

-- Each operation forms its exact result and rounds once.
namespace LoadPacing.Binary64

def negate : Binary64 → Binary64
  | nan => nan
  | infinite negative => infinite (!negative)
  | finite negative units onGrid => finite (!negative) units onGrid

def signed (negative : Bool) (units : Nat) : Int := if negative then -units else units

-- An exact zero is positive unless both terms are negative zeros.
def add : Binary64 → Binary64 → Binary64
  | nan, _ => nan
  | _, nan => nan
  | infinite a, infinite b => if a = b then infinite a else nan
  | infinite a, finite _ _ _ => infinite a
  | finite _ _ _, infinite b => infinite b
  | finite a m _, finite b n _ =>
    let sum := signed a m + signed b n
    if sum = 0 then zero (a && b) else rounded (sum < 0) sum.natAbs 1

def mul : Binary64 → Binary64 → Binary64
  | nan, _ => nan
  | _, nan => nan
  | infinite a, infinite b => infinite (a ^^ b)
  | infinite a, finite b n _ => if n = 0 then nan else infinite (a ^^ b)
  | finite a m _, infinite b => if m = 0 then nan else infinite (a ^^ b)
  | finite a m _, finite b n _ => rounded (a ^^ b) (m * n) perOne

def div : Binary64 → Binary64 → Binary64
  | nan, _ => nan
  | _, nan => nan
  | infinite _, infinite _ => nan
  | infinite a, finite b _ _ => infinite (a ^^ b)
  | finite a _ _, infinite b => zero (a ^^ b)
  | finite a m _, finite b n _ =>
    if n = 0 then (if m = 0 then nan else infinite (a ^^ b)) else rounded (a ^^ b) (m * perOne) n

instance : Neg Binary64 := ⟨negate⟩
instance : Add Binary64 := ⟨add⟩
instance : Sub Binary64 := ⟨fun x y => add x (negate y)⟩
instance : Mul Binary64 := ⟨mul⟩
instance : Div Binary64 := ⟨div⟩

def larger (x y : Binary64) : Binary64 :=
  if x = nan then y else if y = nan then x else if x < y then y else x

def smaller (x y : Binary64) : Binary64 :=
  if x = nan then y else if y = nan then x else if y < x then y else x

instance : Max Binary64 := ⟨larger⟩
instance : Min Binary64 := ⟨smaller⟩

-- Past the outer cases 10^e, which is at least 8^e, is beyond the limit or below half a unit.
def ofDecimal (negative : Bool) (coefficient : Nat) (exponent : Int) : Binary64 :=
  if coefficient = 0 then zero negative
  else match exponent with
    | .ofNat e =>
      if 1024 ≤ coefficient.log2 + 3 * e then infinite negative
      else rounded negative (coefficient * Nat.pow 10 e * perOne) 1
    | .negSucc e =>
      if coefficient.log2 + 1076 ≤ 3 * (e + 1) then zero negative
      else rounded negative (coefficient * perOne) (Nat.pow 10 (e + 1))

def ofBits (word : Nat) : Binary64 :=
  let negative := word / Nat.pow 2 63 % 2 = 1
  let exponent := word / Nat.pow 2 52 % Nat.pow 2 11
  let fraction := word % Nat.pow 2 52
  if exponent = 2047 then (if fraction = 0 then infinite negative else nan)
  else if exponent = 0 then rounded negative fraction 1
  else rounded negative ((Nat.pow 2 52 + fraction) * Nat.pow 2 (exponent - 1)) 1

def toBits : Binary64 → Nat
  | nan => 2047 * Nat.pow 2 52 + Nat.pow 2 51
  | infinite negative => (if negative then Nat.pow 2 63 else 0) + 2047 * Nat.pow 2 52
  | finite negative units _ =>
    (if negative then Nat.pow 2 63 else 0) + ((units.log2 - 52) * Nat.pow 2 52 + units / spacing units)

end LoadPacing.Binary64
