import LoadPacing.JsonText.Reader
import LoadPacing.Load

-- Load reports as JSON text. Unknown keys are passed over with their values.
namespace LoadPacing.JsonText

structure PartialReading where
  location : Option (List Char)
  percent : Option Binary64
  deriving DecidableEq

def passMember (state : σ) (text : List Char) : Read σ :=
  match colon text with
  | .error error => .error error
  | .ok text =>
    match pass text with
    | none => .error .malformed
    | some rest => .ok (state,rest)

def newMember (key : String) (given : Bool) (read : List Char → Read β) (write : β → σ)
    (text : List Char) : Read σ :=
  if given then .error (.mismatch (.repeatedKey key))
  else match colon text with
    | .error error => .error error
    | .ok text =>
      match read text with
      | .error error => .error error
      | .ok (value,rest) => .ok (write value,rest)

variable (conv : Conversion)

def readingMember (r : PartialReading) (key text : List Char) : Read PartialReading :=
  if key = "location".toList then
    newMember "location" r.location.isSome (readString conv) (fun value => { r with location := some value }) text
  else if key = "cpu_percent".toList then
    newMember "cpu_percent" r.percent.isSome (readNumber conv) (fun value => { r with percent := some value }) text
  else passMember r text

def PartialReading.complete (r : PartialReading) : Except ReadError Reading :=
  match r.location, r.percent with
  | none, _ => .error (.mismatch (.missingKey "location"))
  | some _, none => .error (.mismatch (.missingKey "cpu_percent"))
  | some location, some percent => .ok ⟨String.ofList location,percent⟩

def readingName : String := "CpuStats"

def positionalReading (text : List Char) : Read Reading :=
  match element true text with
  | .error error => .error error
  | .ok none => .error (.mismatch (.tooFew 0 readingName 2))
  | .ok (some text) =>
    match readString conv text with
    | .error error => .error error
    | .ok (location,text) =>
      match element false text with
      | .error error => .error error
      | .ok none => .error (.mismatch (.tooFew 1 readingName 2))
      | .ok (some text) =>
        match readNumber conv text with
        | .error error => .error error
        | .ok (percent,text) =>
          match closeList text with
          | .error error => .error error
          | .ok rest => .ok (⟨String.ofList location,percent⟩,rest)

def readReading (text : List Char) : Read Reading :=
  match skipBlank text with
  | '[' :: text => positionalReading conv text
  | '{' :: text =>
    match readMembers (readingMember conv) ⟨none,none⟩ text with
    | .error error => .error error
    | .ok (reading,rest) =>
      match reading.complete with
      | .error error => .error error
      | .ok reading => .ok (reading,rest)
  | text => .error (wrongType conv (.record readingName) text)

def reportMember (readings : Option (List Reading)) (key text : List Char) :
    Read (Option (List Reading)) :=
  if key = "cpu_stats".toList then
    newMember "cpu_stats" readings.isSome (readList conv (readReading conv)) some text
  else passMember readings text

def positionalReport (text : List Char) : Read (List Reading) :=
  match element true text with
  | .error error => .error error
  | .ok none =>
    match closeList text with
    | .error error => .error error
    | .ok rest => .ok ([],rest)
  | .ok (some text) =>
    match readList conv (readReading conv) text with
    | .error error => .error error
    | .ok (readings,text) =>
      match closeList text with
      | .error error => .error error
      | .ok rest => .ok (readings,rest)

def readReport (text : List Char) : Read (List Reading) :=
  match skipBlank text with
  | '[' :: text => positionalReport conv text
  | '{' :: text =>
    match readMembers (reportMember conv) none text with
    | .error error => .error error
    | .ok (readings,rest) => .ok (readings.getD [],rest)
  | text => .error (wrongType conv (.record "ServerStats") text)

def reportFrom (text : String) : Except ReadError (List Reading) := readText (readReport conv) text.toList

def reportOfText (text : String) : Except ReadError (List Reading) := reportFrom .nearest text

end LoadPacing.JsonText
