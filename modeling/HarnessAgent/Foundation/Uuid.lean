import HarnessAgent.Foundation.Text
import Mathlib.Algebra.Ring.Nat

/-! # UUIDs as texts

A UUID is 32 hexadecimal digits. It is printed in lower case with hyphens, and read in
either case, with or without hyphens, in braces, and behind the prefix of a URN.
-/

namespace Text

def hexChar (digit : Fin 16) : Char :=
  "0123456789abcdef".toList.getD digit.val '0'

def hexDigit (character : Char) : Option (Fin 16) :=
  (List.finRange 16).find? fun digit =>
    hexChar digit = character || (hexChar digit).toUpper = character

def hexDigits (text : List Char) : Option (List (Fin 16)) :=
  text.mapM hexDigit

end Text

structure Uuid where
  digits : List (Fin 16)
  length : digits.length = 32
  deriving DecidableEq

namespace Uuid

open Text

def printGroups : List Nat → List (Fin 16) → List Char
  | [], _ => []
  | [_], digits => digits.map hexChar
  | count :: counts, digits =>
      (digits.take count).map hexChar ++ '-' :: printGroups counts (digits.drop count)

def parseGroups : List Nat → List Char → Option (List (Fin 16))
  | [], text => if text.isEmpty then some [] else none
  | [count], text => if text.length = count then hexDigits text else none
  | count :: counts, text =>
      match text.drop count with
      | '-' :: rest => do
          let first ← hexDigits (text.take count)
          let later ← parseGroups counts rest
          return first ++ later
      | _ => none

def hyphenated : List Nat := [8, 4, 4, 4, 12]

def print (uuid : Uuid) : String :=
  String.ofList (printGroups hyphenated uuid.digits)

def unwrapped (text : List Char) : List Char :=
  match text with
  | '{' :: rest =>
      match rest.getLast? with
      | some '}' => rest.dropLast
      | _ => text
  | _ => (afterLiteral ['u', 'r', 'n', ':', 'u', 'u', 'i', 'd', ':'] text).getD text

def ofDigits (digits : List (Fin 16)) : Option Uuid :=
  if length : digits.length = 32 then some { digits, length } else none

def parse (text : String) : Option Uuid :=
  ((parseGroups [32] text.toList).or (parseGroups hyphenated (unwrapped text.toList))).bind
    ofDigits

end Uuid
