/-!
# Quoted text

The form in which a text stands inside an outline: between double quotes, with backslashes before
quotes and backslashes, and escapes for control characters.
-/

namespace NominalTypes

namespace Text

/-- The digits of a number in base sixteen. -/
def hexDigits (number : Nat) : List Char := Nat.toDigits 16 number

/-- A character of a quoted text. -/
def quotedCharacter (character : Char) : List Char :=
  match character with
  | '"' => ['\\', '"']
  | '\\' => ['\\', '\\']
  | '\n' => ['\\', 'n']
  | '\r' => ['\\', 'r']
  | '\t' => ['\\', 't']
  | _ =>
      if character.toNat = 0 then ['\\', '0']
      else if character.toNat < 0x20 ∨ character.toNat = 0x7F then
        '\\' :: 'u' :: '\x7b' :: hexDigits character.toNat ++ ['\x7d']
      else [character]

/-- The text between double quotes, with its special characters escaped. -/
def quoted (text : String) : String :=
  String.ofList ('"' :: text.toList.flatMap quotedCharacter ++ ['"'])

end Text

end NominalTypes
