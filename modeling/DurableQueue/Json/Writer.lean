import DurableQueue.Json.Value
import DurableQueue.Text.Decimal

/-!
# Compact JSON text

* `Json.writeText` writes a text between quotes; only quotes, backslashes and control characters
  below the space are escaped;
* `Json.write` writes a value without any blanks.

Numbers that are no integers of 64 bits and flawed values never come out of an encoder; they are
written as `null`.
-/

namespace DurableQueue.Json

/-- The lower-case hexadecimal digit of a number below sixteen. -/
def hexDigit (n : Nat) : Char := Nat.digitChar n

/-- How one character is written inside quotes. -/
def writeChar (c : Char) : List Char :=
  if c = '"' then ['\\', '"']
  else if c = '\\' then ['\\', '\\']
  else if c = '\x08' then ['\\', 'b']
  else if c = '\t' then ['\\', 't']
  else if c = '\n' then ['\\', 'n']
  else if c = '\x0c' then ['\\', 'f']
  else if c = '\r' then ['\\', 'r']
  else if c.toNat < 32 then ['\\', 'u', '0', '0', hexDigit (c.toNat / 16), hexDigit (c.toNat % 16)]
  else [c]

/-- A text between quotes. -/
def writeText (s : String) : List Char := '"' :: s.toList.flatMap writeChar ++ ['"']

mutual

/-- The characters of a value. -/
def writeChars : Json → List Char
  | .null => "null".toList
  | .bool true => "true".toList
  | .bool false => "false".toList
  | .integer n => Decimal.signed n
  | .text s => writeText s
  | .array items => '[' :: writeItems items ++ [']']
  | .object fields => '\x7b' :: writeFields fields ++ ['\x7d']
  | .real => "null".toList
  | .flawed => "null".toList

/-- Items with commas between them. -/
def writeItems : List Json → List Char
  | [] => []
  | [j] => writeChars j
  | j :: k :: js => writeChars j ++ ',' :: writeItems (k :: js)

/-- Fields with commas between them. -/
def writeFields : List (String × Json) → List Char
  | [] => []
  | [(name, j)] => writeText name ++ ':' :: writeChars j
  | (name, j) :: f :: fs => writeText name ++ ':' :: writeChars j ++ ',' :: writeFields (f :: fs)

end

/-- The compact text of a value. -/
def write (j : Json) : String := String.ofList (writeChars j)

end DurableQueue.Json
