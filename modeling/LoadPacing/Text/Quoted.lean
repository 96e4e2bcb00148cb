import LoadPacing.Text.Shapeless

-- What would not show by itself is escaped.
namespace LoadPacing.Text

def codeEscape (c : Char) : List Char :=
  ['\\','u','\x7b'] ++ Nat.toDigits 16 c.toNat ++ ['\x7d']

def quotedChar (c : Char) : List Char :=
  if c = '\x00' then ['\\','0']
  else if c = '\t' then ['\\','t']
  else if c = '\r' then ['\\','r']
  else if c = '\n' then ['\\','n']
  else if c = '"' then ['\\','"']
  else if c = '\\' then ['\\','\\']
  else if c < ' ' then codeEscape c
  else if c < '\x7f' then [c]
  else if shapeless c then codeEscape c
  else [c]

def quoted (chars : List Char) : List Char := '"' :: chars.flatMap quotedChar ++ ['"']

end LoadPacing.Text
