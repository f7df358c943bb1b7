import ScriptBundler.Text.Identifier

namespace ScriptBundler.Text

/-- A hexadecimal digit in lower case; only numbers below sixteen have one. -/
def hexDigit (n : Nat) : Char :=
  if n < 10 then Char.ofNat (48 + n) else Char.ofNat (87 + n)

def quotedChar (c : Char) : List Char :=
  if c = '"' then ['\\', '"']
  else if c = '\\' then ['\\', '\\']
  else if c.toNat = 8 then ['\\', 'b']
  else if c.toNat = 9 then ['\\', 't']
  else if c.toNat = 10 then ['\\', 'n']
  else if c.toNat = 12 then ['\\', 'f']
  else if c.toNat = 13 then ['\\', 'r']
  else if c.toNat < 32 then
    ['\\', 'u', '0', '0', hexDigit (c.toNat / 16), hexDigit (c.toNat % 16)]
  else [c]

def quote (s : String) : String :=
  String.ofList ('"' :: s.toList.flatMap quotedChar ++ ['"'])

def propertyKey (name : String) : String :=
  if Identifier.isName name then name else quote name

def propertyAccess (object name : String) : String :=
  if Identifier.isName name then object ++ "." ++ name else object ++ "[" ++ quote name ++ "]"

def object (properties : List String) : String :=
  "\x7b" ++ ", ".intercalate properties ++ "\x7d"

def property (key value : String) : String := key ++ ": " ++ value

end ScriptBundler.Text
