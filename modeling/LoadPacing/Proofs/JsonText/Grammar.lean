import LoadPacing.JsonText.Lexeme
import LoadPacing.Proofs.Binary64.Decimal
import Mathlib.Data.Nat.Digits.Defs

-- JSON text as a grammar, apart from what reads it.
namespace LoadPacing.JsonText

def Blanks (text : List Char) : Prop := ∀ c ∈ text, c ∈ [' ','\n','\t','\r']

instance (text : List Char) : Decidable (Blanks text) := List.decidableBAll _ text

def Follows (allowed rest : List Char) : Prop := ∀ c ∈ rest.head?, c ∈ allowed

instance (allowed rest : List Char) : Decidable (Follows allowed rest) := Option.decidableForallMem _

-- What may stand behind a value.
def closers : List Char := [' ','\n','\t','\r',',',']','\x7d']

def Digits (text : List Char) : Prop := text ≠ [] ∧ ∀ c ∈ text, c.isDigit = true

instance (text : List Char) : Decidable (Digits text) :=
  @instDecidableAnd _ _ inferInstance (List.decidableBAll _ text)

-- The number that digits spell in base ten.
def worth (digits : List Char) : Nat := Nat.ofDigits 10 (digits.reverse.map digitValue)

structure Power where
  capital : Bool
  sign : Option Bool
  digits : List Char
  spelled : Digits digits

namespace Power

def text (p : Power) : List Char :=
  (if p.capital then 'E' else 'e') ::
    ((match p.sign with
      | none => []
      | some minus => if minus then ['-'] else ['+']) ++ p.digits)

def exponent (p : Power) : Int := if p.sign = some true then -worth p.digits else worth p.digits

end Power

-- A number as it may be written: no padding in front, and digits on both sides of a point.
structure Decimal where
  negative : Bool
  whole : List Char
  places : Option (List Char)
  power : Option Power
  wholeSpelled : Digits whole
  unpadded : whole.head? = some '0' → whole = ['0']
  placesSpelled : ∀ digits, places = some digits → Digits digits

namespace Decimal

def pointText (n : Decimal) : List Char :=
  match n.places with
  | none => []
  | some digits => '.' :: digits

def powerText (n : Decimal) : List Char :=
  match n.power with
  | none => []
  | some power => power.text

def text (n : Decimal) : List Char :=
  (if n.negative then ['-'] else []) ++ (n.whole ++ (n.pointText ++ n.powerText))

def behindPoint (n : Decimal) : List Char := n.places.getD []

def exponent (n : Decimal) : Int := (n.power.map Power.exponent).getD 0

def exact (n : Decimal) : ℚ :=
  (if n.negative then -1 else 1) *
    ((worth n.whole + worth n.behindPoint / 10 ^ n.behindPoint.length) * 10 ^ n.exponent)

-- The double that a number stands for: finite, of the same sign, and none is nearer to it.
structure Denotes (n : Decimal) (x : Binary64) : Prop where
  finite : x.IsFinite
  sign : x.sign = n.negative
  nearest : ∀ y : Binary64, y.IsFinite → |x.value - n.exact| ≤ |y.value - n.exact|
  rounds : x.Rounds n.exact

end Decimal

def hexDigits : List (Char × Nat) :=
  [('0',0),('1',1),('2',2),('3',3),('4',4),('5',5),('6',6),('7',7),('8',8),('9',9),
    ('a',10),('b',11),('c',12),('d',13),('e',14),('f',15),
    ('A',10),('B',11),('C',12),('D',13),('E',14),('F',15)]

-- Four hexadecimal digits and the 16-bit unit that they spell.
inductive Hex : List Char → Nat → Prop where
  | mk (one : (a,v) ∈ hexDigits) (two : (b,w) ∈ hexDigits) (three : (c,x) ∈ hexDigits) (four : (d,y) ∈ hexDigits) :
      Hex [a,b,c,d] (((v * 16 + w) * 16 + x) * 16 + y)

def escapes : List (Char × Char) :=
  [('"','"'),('\\','\\'),('/','/'),('b','\x08'),('f','\x0c'),('n','\n'),('r','\r'),('t','\t')]

def Ordinary (c : Char) : Prop := c ≠ '"' ∧ c ≠ '\\' ∧ ' ' ≤ c

instance (c : Char) : Decidable (Ordinary c) := inferInstanceAs (Decidable (_ ∧ _))

-- Surrogates come in pairs.
inductive Spelled : List Char → List Char → Prop where
  | nil : Spelled [] []
  | plain (ordinary : Ordinary c) (later : Spelled written chars) : Spelled (c :: written) (c :: chars)
  | escape (listed : (e,c) ∈ escapes) (later : Spelled written chars) : Spelled ('\\' :: e :: written) (c :: chars)
  | unit (hex : Hex code v) (scalar : v < 0xD800 ∨ 0xE000 ≤ v) (later : Spelled written chars) :
      Spelled ('\\' :: 'u' :: code ++ written) (Char.ofNat v :: chars)
  | pair (first : Hex code v) (high : 0xD800 ≤ v ∧ v < 0xDC00) (second : Hex code' w)
      (low : 0xDC00 ≤ w ∧ w < 0xE000) (later : Spelled written chars) :
      Spelled ('\\' :: 'u' :: code ++ '\\' :: 'u' :: code' ++ written)
        (Char.ofNat (0x10000 + (v - 0xD800) * 0x400 + (w - 0xDC00)) :: chars)

-- What may stand between the quotes, whether or not its units make characters.
inductive Raw : List Char → Prop where
  | nil : Raw []
  | plain (ordinary : Ordinary c) (later : Raw written) : Raw (c :: written)
  | escape (listed : (e,c) ∈ escapes) (later : Raw written) : Raw ('\\' :: e :: written)
  | unit (hex : Hex code v) (later : Raw written) : Raw ('\\' :: 'u' :: code ++ written)

-- In front of the first item there are blanks, in front of each further one a comma as well.
def Lead : Bool → List Char → Prop
  | true, lead => Blanks lead
  | false, lead => ∃ before after, Blanks before ∧ Blanks after ∧ lead = before ++ ',' :: after

inductive Row {β : Type} (Item : β → List Char → Prop) : Bool → List β → List Char → Prop where
  | nil : Row Item first [] []
  | cons (leads : Lead first lead) (item : Item x text) (later : Row Item false xs rest) :
      Row Item first (x :: xs) (lead ++ text ++ rest)

def Paired (key value text : List Char) : Prop :=
  ∃ before after, Blanks before ∧ Blanks after ∧ text = '"' :: key ++ '"' :: before ++ ':' :: after ++ value

def wordNull : List Char := ['n','u','l','l']
def wordTrue : List Char := ['t','r','u','e']
def wordFalse : List Char := ['f','a','l','s','e']

inductive IsValue : List Char → Prop where
  | null : IsValue wordNull
  | true_ : IsValue wordTrue
  | false_ : IsValue wordFalse
  | number (n : Decimal) : IsValue n.text
  | string (raw : Raw written) : IsValue ('"' :: written ++ ['"'])
  | list {values : List (List Char)} (each : ∀ value ∈ values, IsValue value)
      (row : Row (fun value text => value = text) true values text) (after : Blanks blank) :
      IsValue ('[' :: text ++ blank ++ [']'])
  | object {members : List (List Char × List Char)} (keys : ∀ m ∈ members, Raw m.1)
      (each : ∀ m ∈ members, IsValue m.2) (row : Row (fun m => Paired m.1 m.2) true members text)
      (after : Blanks blank) : IsValue ('\x7b' :: text ++ blank ++ ['\x7d'])

structure Bracketed (values : List (List Char)) (text : List Char) : Prop where
  each : ∀ value ∈ values, IsValue value
  written : ∃ row blank, Row (fun value text => value = text) true values row ∧ Blanks blank ∧
    text = '[' :: row ++ blank ++ [']']

structure Braced (members : List (List Char × List Char)) (text : List Char) : Prop where
  keys : ∀ m ∈ members, Raw m.1
  each : ∀ m ∈ members, IsValue m.2
  written : ∃ row blank, Row (fun m => Paired m.1 m.2) true members row ∧ Blanks blank ∧
    text = '\x7b' :: row ++ blank ++ ['\x7d']

theorem Bracketed.isValue {values : List (List Char)} {text : List Char} (list : Bracketed values text) : IsValue text := by
  obtain ⟨each,row,blank,written,after,rfl⟩ := list
  exact .list each written after

theorem Braced.isValue {members : List (List Char × List Char)} {text : List Char} (object : Braced members text) :
    IsValue text := by
  obtain ⟨keys,each,row,blank,written,after,rfl⟩ := object
  exact .object keys each written after

end LoadPacing.JsonText
