import LoadPacing.JsonText.Lexeme

-- Passing over a value that nobody looks at, its open lists and objects on a stack.
namespace LoadPacing.JsonText

inductive Frame where
  | list | object
  deriving DecidableEq

inductive Spot where
  | value | ended
  deriving DecidableEq

def passScalar : List Char → Option (List Char)
  | 'n' :: text => behind ['u','l','l'] text
  | 't' :: text => behind ['r','u','e'] text
  | 'f' :: text => behind ['a','l','s','e'] text
  | text => (numeral text).map fun read => read.2

def passKey (text : List Char) : Option (List Char) :=
  match skipBlank text with
  | '"' :: text =>
    match passString .plain text with
    | none => none
    | some text =>
      match skipBlank text with
      | ':' :: text => some text
      | _ => none
  | _ => none

-- Every step but the last one takes a character.
def passFrom : Nat → List Frame → Spot → List Char → Option (List Char)
  | 0, _, _, _ => none
  | _ + 1, [], .ended, text => some text
  | fuel + 1, frames, .value, text =>
    match skipBlank text with
    | '"' :: text =>
      match passString .plain text with
      | none => none
      | some text => passFrom fuel frames .ended text
    | '[' :: text =>
      match skipBlank text with
      | ']' :: text => passFrom fuel frames .ended text
      | text => passFrom fuel (.list :: frames) .value text
    | '{' :: text =>
      match skipBlank text with
      | '}' :: text => passFrom fuel frames .ended text
      | text =>
        match passKey text with
        | none => none
        | some text => passFrom fuel (.object :: frames) .value text
    | text =>
      match passScalar text with
      | none => none
      | some text => passFrom fuel frames .ended text
  | fuel + 1, .list :: frames, .ended, text =>
    match skipBlank text with
    | ',' :: text => passFrom fuel (.list :: frames) .value text
    | ']' :: text => passFrom fuel frames .ended text
    | _ => none
  | fuel + 1, .object :: frames, .ended, text =>
    match skipBlank text with
    | ',' :: text =>
      match passKey text with
      | none => none
      | some text => passFrom fuel (.object :: frames) .value text
    | '}' :: text => passFrom fuel frames .ended text
    | _ => none

def pass (text : List Char) : Option (List Char) := passFrom (text.length + 1) [] .value text

end LoadPacing.JsonText
