import LoadPacing.JsonText.Mismatch
import LoadPacing.JsonText.Pass

-- Reading typed values; the first problem met is the answer.
namespace LoadPacing.JsonText

abbrev Read (β : Type) := Except ReadError (β × List Char)

def orMalformed : Option β → Except ReadError β
  | some x => .ok x
  | none => .error .malformed

variable (conv : Conversion)

def Conversion.found (n : Numeral) : Option Found :=
  match n.integer with
  | some value => some (.integer value)
  | none => (conv.value n).map .floating

-- The value that stands where another type is expected; lists and objects are not read into.
def found : List Char → Option Found
  | 'n' :: text => (behind ['u','l','l'] text).map fun _ => .null
  | 't' :: text => (behind ['r','u','e'] text).map fun _ => .boolean true
  | 'f' :: text => (behind ['a','l','s','e'] text).map fun _ => .boolean false
  | '"' :: text => (string .plain text).map fun read => .string read.1
  | '[' :: _ => some .sequence
  | '{' :: _ => some .map
  | text => (numeral text).bind fun read => conv.found read.1

def wrongType (expected : Expected) (text : List Char) : ReadError :=
  match found conv text with
  | none => .malformed
  | some found => .mismatch (.wrongType found expected)

def startsNumeral : List Char → Bool
  | [] => false
  | c :: _ => c = '-' || c.isDigit

def readNumber (text : List Char) : Read Binary64 :=
  let text := skipBlank text
  if startsNumeral text then
    match numeral text with
    | none => .error .malformed
    | some (numeral,rest) =>
      match conv.value numeral with
      | none => .error .malformed
      | some value => .ok (value,rest)
  else .error (wrongType conv .number text)

def readSeconds (text : List Char) : Read Nanos :=
  match readNumber conv text with
  | .error error => .error error
  | .ok (value,rest) =>
    match Nanos.ofSeconds value with
    | .error fault => .error (.mismatch (.conversion fault))
    | .ok nanos => .ok (nanos,rest)

def readOptionalSeconds (text : List Char) : Read (Option Nanos) :=
  match skipBlank text with
  | 'n' :: text =>
    match behind ['u','l','l'] text with
    | none => .error .malformed
    | some rest => .ok (none,rest)
  | text =>
    match readSeconds conv text with
    | .error error => .error error
    | .ok (nanos,rest) => .ok (some nanos,rest)

def readString (text : List Char) : Read (List Char) :=
  match skipBlank text with
  | '"' :: text => orMalformed (string .plain text)
  | text => .error (wrongType conv .string text)

-- The text at the next element, or none at the closing bracket.
def element (first : Bool) (text : List Char) : Except ReadError (Option (List Char)) :=
  match skipBlank text with
  | ']' :: _ => .ok none
  | ',' :: text =>
    if first then .error .malformed
    else match skipBlank text with
      | [] => .error .malformed
      | ']' :: _ => .error .malformed
      | text => .ok (some text)
  | [] => .error .malformed
  | text => if first then .ok (some text) else .error .malformed

def closeList (text : List Char) : Except ReadError (List Char) :=
  match skipBlank text with
  | ']' :: text => .ok text
  | _ => .error .malformed

def elements (read : List Char → Read β) : Nat → Bool → List Char → Read (List β)
  | 0, _, _ => .error .malformed
  | fuel + 1, first, text =>
    match element first text with
    | .error error => .error error
    | .ok none =>
      match closeList text with
      | .error error => .error error
      | .ok rest => .ok ([],rest)
    | .ok (some text) =>
      match read text with
      | .error error => .error error
      | .ok (x,text) =>
        match elements read fuel false text with
        | .error error => .error error
        | .ok (xs,rest) => .ok (x :: xs,rest)

def readList (read : List Char → Read β) (text : List Char) : Read (List β) :=
  match skipBlank text with
  | '[' :: text => elements read (text.length + 1) true text
  | text => .error (wrongType conv .sequence text)

inductive KeyOrEnd where
  | key (chars : List Char) (rest : List Char)
  | closed (rest : List Char)

def keyAt : List Char → Except ReadError KeyOrEnd
  | '"' :: text =>
    match string .plain text with
    | none => .error .malformed
    | some (chars,rest) => .ok (.key chars rest)
  | _ => .error .malformed

def nextKey (first : Bool) (text : List Char) : Except ReadError KeyOrEnd :=
  match skipBlank text with
  | '}' :: rest => .ok (.closed rest)
  | ',' :: text => if first then .error .malformed else keyAt (skipBlank text)
  | text => if first then keyAt text else .error .malformed

def colon (text : List Char) : Except ReadError (List Char) :=
  match skipBlank text with
  | ':' :: text => .ok text
  | _ => .error .malformed

-- The key of a member is judged before its colon and value are looked at.
def members (member : σ → List Char → List Char → Read σ) : Nat → Bool → σ → List Char → Read σ
  | 0, _, _, _ => .error .malformed
  | fuel + 1, first, state, text =>
    match nextKey first text with
    | .error error => .error error
    | .ok (.closed rest) => .ok (state,rest)
    | .ok (.key key text) =>
      match member state key text with
      | .error error => .error error
      | .ok (state,text) => members member fuel false state text

def readMembers (member : σ → List Char → List Char → Read σ) (state : σ) (text : List Char) : Read σ :=
  members member (text.length + 1) true state text

def readText (read : List Char → Read β) (text : List Char) : Except ReadError β :=
  match read text with
  | .error error => .error error
  | .ok (x,rest) => if (skipBlank rest).isEmpty then .ok x else .error .malformed

end LoadPacing.JsonText
