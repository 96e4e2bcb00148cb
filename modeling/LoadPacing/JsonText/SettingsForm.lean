import LoadPacing.JsonText.Reader
import LoadPacing.Settings

-- Settings as JSON text: an object of known keys, or a list of the fields in their order.
namespace LoadPacing.JsonText

inductive Field where
  | initialRate | targetLoad | cooldown | lowerBound | upperBound | maxBurst | acquireTimeout
  deriving DecidableEq

def Field.all : List Field :=
  [.initialRate,.targetLoad,.cooldown,.lowerBound,.upperBound,.maxBurst,.acquireTimeout]

def Field.key : Field → String
  | .initialRate => "initial_rate"
  | .targetLoad => "target_cpu_percent"
  | .cooldown => "cooldown_secs"
  | .lowerBound => "lower_bound"
  | .upperBound => "upper_bound"
  | .maxBurst => "max_burst_secs"
  | .acquireTimeout => "acquire_timeout_secs"

def Field.ofKey (key : List Char) : Option Field :=
  Field.all.find? fun field => field.key.toList = key

variable (conv : Conversion)

def store (write : β → Settings) : Read β → Read Settings
  | .error error => .error error
  | .ok (value,rest) => .ok (write value,rest)

def Field.read (field : Field) (s : Settings) (text : List Char) : Read Settings :=
  match field with
  | .initialRate => store (fun value => { s with initialRate := value }) (readNumber conv text)
  | .targetLoad => store (fun value => { s with targetLoad := value }) (readNumber conv text)
  | .cooldown => store (fun value => { s with cooldown := value }) (readSeconds conv text)
  | .lowerBound => store (fun value => { s with lowerBound := value }) (readNumber conv text)
  | .upperBound => store (fun value => { s with upperBound := value }) (readNumber conv text)
  | .maxBurst => store (fun value => { s with maxBurst := value }) (readNumber conv text)
  | .acquireTimeout =>
    store (fun value => { s with acquireTimeout := value }) (readOptionalSeconds conv text)

-- The settings read so far and the fields that gave them.
def settingsMember (state : Settings × List Field) (key text : List Char) :
    Read (Settings × List Field) :=
  match Field.ofKey key with
  | none => .error (.mismatch (.unknownKey key (Field.all.map Field.key)))
  | some field =>
    if field ∈ state.2 then .error (.mismatch (.repeatedKey field.key))
    else match colon text with
      | .error error => .error error
      | .ok text =>
        match field.read conv state.1 text with
        | .error error => .error error
        | .ok (settings,rest) => .ok ((settings,field :: state.2),rest)

def positional : List Field → Bool → Settings → List Char → Read Settings
  | [], _, s, text =>
    match closeList text with
    | .error error => .error error
    | .ok rest => .ok (s,rest)
  | field :: fields, first, s, text =>
    match element first text with
    | .error error => .error error
    | .ok none =>
      match closeList text with
      | .error error => .error error
      | .ok rest => .ok (s,rest)
    | .ok (some text) =>
      match field.read conv s text with
      | .error error => .error error
      | .ok (s,text) => positional fields false s text

def readSettings (text : List Char) : Read Settings :=
  match skipBlank text with
  | '[' :: text => positional conv Field.all true .default text
  | '{' :: text =>
    match readMembers (settingsMember conv) (.default,[]) text with
    | .error error => .error error
    | .ok (state,rest) => .ok (state.1,rest)
  | text => .error (wrongType conv (.record "RateLimitingSettings") text)

def settingsFrom (text : String) : Except ReadError Settings := readText (readSettings conv) text.toList

def settingsOfText (text : String) : Except ReadError Settings := settingsFrom .nearest text

end LoadPacing.JsonText
