/-!
Strings as JSON writes them: between double quotes, with the quote, the
backslash and the control characters escaped and everything else as it is.
-/
namespace TypeShape.Text

def hexDigit (n : Nat) : Char :=
  if n < 10 then Char.ofNat (48 + n) else Char.ofNat (87 + n)

/-- One character inside a JSON string.  Five control characters have an escape
of their own. -/
def literalChar (c : Char) : List Char :=
  if c = '"' then ['\\', '"']
  else if c = '\\' then ['\\', '\\']
  else if c = '\x08' then ['\\', 'b']
  else if c = '\x0c' then ['\\', 'f']
  else if c = '\n' then ['\\', 'n']
  else if c = '\r' then ['\\', 'r']
  else if c = '\t' then ['\\', 't']
  else if c.toNat < 0x20 then
    ['\\', 'u', '0', '0', hexDigit (c.toNat / 16), hexDigit (c.toNat % 16)]
  else [c]

def literal (text : String) : List Char :=
  '"' :: text.toList.flatMap literalChar ++ ['"']

def bracketed (items : List (List Char)) : List Char :=
  '[' :: (items.intersperse [',']).flatten ++ [']']

end TypeShape.Text
