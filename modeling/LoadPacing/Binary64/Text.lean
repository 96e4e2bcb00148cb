import LoadPacing.Binary64.Shortest

-- Texts of doubles, all with the shortest digits that read back.
namespace LoadPacing.Binary64

structure Layout where
  -- Powers of ten of the leading digit that are written positionally; none: all.
  positional : Option (Int × Int)
  pointZero : Bool
  plusSign : Bool
  halfway : Halfway

-- Inside messages.
def Layout.message : Layout := ⟨none,false,false,.up⟩

-- Inside log fields.
def Layout.record : Layout := ⟨some (-4,15),true,false,.up⟩

-- Inside complaints about a JSON number.
def Layout.complaint : Layout := ⟨some (-5,15),true,true,.toEven⟩

def digitsOf (n : Nat) : List Char := Nat.toDigits 10 n

def positionalText (pointZero : Bool) (d : Decimal) : List Char :=
  let digits := digitsOf d.coefficient
  match d.exponent with
  | .ofNat e => digits ++ List.replicate e '0' ++ if pointZero then ['.','0'] else []
  | .negSucc e =>
    let places := e + 1
    if places < digits.length then
      digits.take (digits.length - places) ++ '.' :: digits.drop (digits.length - places)
    else '0' :: '.' :: List.replicate (places - digits.length) '0' ++ digits

def exponentSign (plusSign : Bool) (leading : Int) : List Char :=
  if leading < 0 then ['-'] else if plusSign then ['+'] else []

def exponentText (plusSign : Bool) (leading : Int) (d : Decimal) : List Char :=
  let mantissa := match digitsOf d.coefficient with
    | first :: second :: rest => first :: '.' :: second :: rest
    | digits => digits
  mantissa ++ 'e' :: exponentSign plusSign leading ++ digitsOf leading.natAbs

def magnitudeText (layout : Layout) (units : Nat) : List Char :=
  if units = 0 then positionalText layout.pointZero ⟨0,0⟩ else
  let d := shortest layout.halfway units
  let leading := d.exponent + (digitsOf d.coefficient).length - 1
  match layout.positional with
  | none => positionalText layout.pointZero d
  | some (least,most) =>
    if least ≤ leading ∧ leading ≤ most then positionalText layout.pointZero d
    else exponentText layout.plusSign leading d

def text (layout : Layout) : Binary64 → String
  | nan => "NaN"
  | infinite negative => if negative then "-inf" else "inf"
  | finite negative units _ =>
    String.ofList ((if negative then ['-'] else []) ++ magnitudeText layout units)

end LoadPacing.Binary64
