import Mathlib.Data.List.Basic

/-! # JSON strings as texts

Characters that may not stand in a JSON string are escaped, the common ones by a letter,
other control characters by their number.
-/

namespace HarnessAgent

namespace JsonText

def hexDigit (digit : Nat) : Char :=
  if digit < 10 then Char.ofNat (0x30 + digit) else Char.ofNat (0x61 + (digit - 10))

def escaped (character : Char) : List Char :=
  if character = '"' then ['\\', '"']
  else if character = '\\' then ['\\', '\\']
  else if character.toNat = 0x08 then ['\\', 'b']
  else if character.toNat = 0x09 then ['\\', 't']
  else if character.toNat = 0x0A then ['\\', 'n']
  else if character.toNat = 0x0C then ['\\', 'f']
  else if character.toNat = 0x0D then ['\\', 'r']
  else if character.toNat < 0x20 then
    ['\\', 'u', '0', '0', hexDigit (character.toNat / 16), hexDigit (character.toNat % 16)]
  else [character]

def escapedText (text : String) : List Char :=
  text.toList.flatMap escaped

def quoted (text : String) : List Char :=
  '"' :: escapedText text ++ ['"']

end JsonText

end HarnessAgent
