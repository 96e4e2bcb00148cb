import LoadPacing.Binary64.Text
import LoadPacing.JsonText.Lexeme
import LoadPacing.Text.Quoted
import LoadPacing.Time

-- Why well-formed JSON text does not fit what is read from it.
namespace LoadPacing.JsonText

inductive Found where
  | null
  | boolean (value : Bool)
  | integer (value : Int)
  | floating (value : Binary64)
  | string (value : List Char)
  | sequence
  | map
  deriving DecidableEq

inductive Expected where
  | number
  | string
  | sequence
  | record (name : String)
  deriving DecidableEq

inductive Mismatch where
  | wrongType (found : Found) (expected : Expected)
  | unknownKey (key : List Char) (known : List String)
  | repeatedKey (key : String)
  | missingKey (key : String)
  | tooFew (count : Nat) (record : String) (needed : Nat)
  | conversion (fault : Nanos.ConversionFault)
  deriving DecidableEq

inductive ReadError where
  | malformed
  | mismatch (cause : Mismatch)
  deriving DecidableEq

def Found.text : Found → String
  | .null => "null"
  | .boolean value => "boolean `" ++ (if value then "true" else "false") ++ "`"
  | .integer value => "integer `" ++ toString value ++ "`"
  | .floating value => "floating point `" ++ value.text .complaint ++ "`"
  | .string value => "string " ++ String.ofList (Text.quoted value)
  | .sequence => "sequence"
  | .map => "map"

def Expected.text : Expected → String
  | .number => "f64"
  | .string => "a string"
  | .sequence => "a sequence"
  | .record name => "struct " ++ name

def ticked (key : String) : String := "`" ++ key ++ "`"

def Mismatch.message : Mismatch → String
  | .wrongType found expected => "invalid type: " ++ found.text ++ ", expected " ++ expected.text
  | .unknownKey key known =>
    "unknown field " ++ ticked (String.ofList key) ++ ", expected one of " ++
      String.intercalate ", " (known.map ticked)
  | .repeatedKey key => "duplicate field " ++ ticked key
  | .missingKey key => "missing field " ++ ticked key
  | .tooFew count record needed =>
    "invalid length " ++ toString count ++ ", expected struct " ++ record ++ " with " ++
      toString needed ++ " elements"
  | .conversion fault => fault.message

end LoadPacing.JsonText
