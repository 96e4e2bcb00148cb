import LoadPacing.Binary64.Arithmetic

-- The lexemes of JSON text. Each reader returns what it read and the text behind it.
namespace LoadPacing.JsonText

def isBlank (c : Char) : Bool := c = ' ' || c = '\n' || c = '\t' || c = '\r'

def skipBlank (text : List Char) : List Char := text.dropWhile isBlank

def behind : List Char → List Char → Option (List Char)
  | [], text => some text
  | _ :: _, [] => none
  | c :: word, d :: text => if c = d then behind word text else none

-- Its digits in front of the point and behind it, and the power of ten.
structure Numeral where
  negative : Bool
  leading : List Char
  places : List Char
  power : Option Int
  deriving DecidableEq

def digitValue (c : Char) : Nat := c.toNat - '0'.toNat

def digitsValue (digits : List Char) : Nat :=
  digits.foldl (fun n c => 10 * n + digitValue c) 0

def digits (text : List Char) : Option (List Char × List Char) :=
  match text.takeWhile Char.isDigit with
  | [] => none
  | run => some (run,text.dropWhile Char.isDigit)

def wholePart (text : List Char) : Option (List Char × List Char) :=
  match digits text with
  | some ('0' :: _ :: _,_) => none
  | read => read

def fraction : List Char → Option (List Char × List Char)
  | '.' :: text => digits text
  | text => some ([],text)

def exponentDigits (negative : Bool) (text : List Char) : Option (Int × List Char) :=
  (digits text).map fun (run,rest) =>
    (if negative then -(digitsValue run : Int) else digitsValue run,rest)

def exponentValue : List Char → Option (Int × List Char)
  | '+' :: text => exponentDigits false text
  | '-' :: text => exponentDigits true text
  | text => exponentDigits false text

def exponent : List Char → Option (Option Int × List Char)
  | 'e' :: text => (exponentValue text).map fun (e,rest) => (some e,rest)
  | 'E' :: text => (exponentValue text).map fun (e,rest) => (some e,rest)
  | text => some (none,text)

def unsignedNumeral (negative : Bool) (text : List Char) : Option (Numeral × List Char) := do
  let (whole,text) ← wholePart text
  let (places,text) ← fraction text
  let (power,text) ← exponent text
  return (⟨negative,whole,places,power⟩,text)

def numeral : List Char → Option (Numeral × List Char)
  | '-' :: text => unsignedNumeral true text
  | text => unsignedNumeral false text

namespace Numeral
variable (n : Numeral)

def coefficient : Nat := digitsValue (n.leading ++ n.places)

def exponent : Int := n.power.getD 0 - n.places.length

def whole : Bool := n.places.isEmpty && n.power.isNone

-- Within 64 bits; negative zero is no integer.
def integer : Option Int :=
  if ¬ n.whole then none
  else if n.negative then
    if 0 < n.coefficient ∧ n.coefficient ≤ Nat.pow 2 63 then some (-(n.coefficient : Int)) else none
  else if n.coefficient < Nat.pow 2 64 then some n.coefficient else none

end Numeral

-- How numbers become doubles, if they do. It is the format's library that settles this.
structure Conversion where
  value : Numeral → Option Binary64
  finite : value n = some x → x.IsFinite

-- The one in use: to the nearest double, and none past the finite range.
def Conversion.nearest : Conversion where
  value n :=
    let x := Binary64.ofDecimal n.negative n.coefficient n.exponent
    if x.IsFinite then some x else none
  finite := by
    intro n x read
    dsimp only at read
    split at read
    · rename_i finite
      cases read
      exact finite
    · cases read

def hexDigit (c : Char) : Option Nat :=
  if '0' ≤ c ∧ c ≤ '9' then some (c.toNat - '0'.toNat)
  else if 'a' ≤ c ∧ c ≤ 'f' then some (c.toNat - 'a'.toNat + 10)
  else if 'A' ≤ c ∧ c ≤ 'F' then some (c.toNat - 'A'.toNat + 10)
  else none

def simpleEscape : Char → Option Char
  | '"' => some '"'
  | '\\' => some '\\'
  | '/' => some '/'
  | 'b' => some '\x08'
  | 'f' => some '\x0c'
  | 'n' => some '\n'
  | 'r' => some '\r'
  | 't' => some '\t'
  | _ => none

-- A high surrogate must be followed at once by an escaped low one.
inductive Spelling where
  | plain
  | escape
  | unit (high : Option Nat) (digits value : Nat)
  | lowEscape (high : Nat)
  | lowUnit (high : Nat)
  deriving DecidableEq

def completeUnit : Option Nat → Nat → Option (Char ⊕ Spelling)
  | none, value =>
    if 0xD800 ≤ value ∧ value < 0xDC00 then some (.inr (.lowEscape value))
    else if 0xDC00 ≤ value ∧ value < 0xE000 then none
    else some (.inl (Char.ofNat value))
  | some high, value =>
    if 0xDC00 ≤ value ∧ value < 0xE000 then
      some (.inl (Char.ofNat (0x10000 + (high - 0xD800) * 0x400 + (value - 0xDC00))))
    else none

def consRead (c : Char) : Option (List Char × List Char) → Option (List Char × List Char)
  | some (chars,rest) => some (c :: chars,rest)
  | none => none

def string : Spelling → List Char → Option (List Char × List Char)
  | _, [] => none
  | .plain, c :: text =>
    if c = '"' then some ([],text)
    else if c = '\\' then string .escape text
    else if c < ' ' then none
    else consRead c (string .plain text)
  | .escape, c :: text =>
    if c = 'u' then string (.unit none 0 0) text
    else match simpleEscape c with
      | some d => consRead d (string .plain text)
      | none => none
  | .unit high digits value, c :: text =>
    match hexDigit c with
    | none => none
    | some d =>
      if digits < 3 then string (.unit high (digits + 1) (value * 16 + d)) text
      else match completeUnit high (value * 16 + d) with
        | none => none
        | some (.inl e) => consRead e (string .plain text)
        | some (.inr spelling) => string spelling text
  | .lowEscape high, c :: text => if c = '\\' then string (.lowUnit high) text else none
  | .lowUnit high, c :: text => if c = 'u' then string (.unit (some high) 0 0) text else none

-- A string that nobody looks at: its units need not make characters.
inductive Passing where
  | plain
  | escape
  | unit (left : Nat)
  deriving DecidableEq

def passString : Passing → List Char → Option (List Char)
  | _, [] => none
  | .plain, c :: text =>
    if c = '"' then some text
    else if c = '\\' then passString .escape text
    else if c < ' ' then none
    else passString .plain text
  | .escape, c :: text =>
    if c = 'u' then passString (.unit 3) text
    else match simpleEscape c with
      | some _ => passString .plain text
      | none => none
  | .unit left, c :: text =>
    match hexDigit c with
    | none => none
    | some _ =>
      match left with
      | 0 => passString .plain text
      | left + 1 => passString (.unit left) text

end LoadPacing.JsonText
