import DurableQueue.Text.Unprintable

/-!
# Quoted text

The form in which error messages and setting differences show a text: between double quotes,
with a backslash in front of a quote or a backslash, the letters `n`, `r`, `t`, `0` for the usual
control characters and `\\u{…}` with the hexadecimal code point for every other character without
a picture of its own. A single quote stays as it is.
-/

namespace DurableQueue.Text

/-- How one character is shown inside quotes. -/
def quotedChar (c : Char) : List Char :=
  if c = '\x00' then ['\\', '0']
  else if c = '\t' then ['\\', 't']
  else if c = '\r' then ['\\', 'r']
  else if c = '\n' then ['\\', 'n']
  else if c = '"' then ['\\', '"']
  else if c = '\\' then ['\\', '\\']
  else if isUnprintable c then
    ['\\', 'u', '\x7b'] ++ Nat.toDigits 16 c.toNat ++ ['\x7d']
  else [c]

/-- A text between quotes. -/
def quoted (s : String) : String :=
  String.ofList ('"' :: s.toList.flatMap quotedChar ++ ['"'])

end DurableQueue.Text
