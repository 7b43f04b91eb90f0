import NominalTypes.Json.Value

/-!
# Reading JSON text

The strict grammar of JSON: blanks are space, tab, line feed and carriage return; strings hold no
control characters and only the known escapes; numbers have no superfluous zeros and digits around
their point; there is nothing but blanks behind the value.
-/

namespace NominalTypes

namespace Json

/-- Reads something from the start of the characters and gives back the characters behind it. -/
abbrev TextReader (result : Type) := List Char → Option (result × List Char)

/-- The characters that may stand between the parts of a value. -/
def isBlank (character : Char) : Bool :=
  character = ' ' || character = '\t' || character = '\n' || character = '\r'

/-- The characters from the first one that is no blank. -/
def skipBlanks (characters : List Char) : List Char := characters.dropWhile isBlank

/-- The value of a hexadecimal digit. -/
def hexDigit? (character : Char) : Option Nat :=
  if character.isDigit then some (character.toNat - '0'.toNat)
  else if 'a' ≤ character ∧ character ≤ 'f' then some (character.toNat - 'a'.toNat + 10)
  else if 'A' ≤ character ∧ character ≤ 'F' then some (character.toNat - 'A'.toNat + 10)
  else none

/-- The number that four hexadecimal digits denote. -/
def codeUnit? (first second third fourth : Char) : Option Nat := do
  let first ← hexDigit? first
  let second ← hexDigit? second
  let third ← hexDigit? third
  let fourth ← hexDigit? fourth
  some (((first * 16 + second) * 16 + third) * 16 + fourth)

/-- The code point that a one-letter escape stands for. -/
def escape? : Char → Option Nat
  | '"' => some 0x22
  | '\\' => some 0x5C
  | '/' => some 0x2F
  | 'b' => some 0x08
  | 'f' => some 0x0C
  | 'n' => some 0x0A
  | 'r' => some 0x0D
  | 't' => some 0x09
  | _ => none

/-- Reads the rest of a string behind its opening quote, as code points and surrogates. -/
def stringBody : TextReader (List Nat)
  | [] => none
  | '"' :: rest => some ([], rest)
  | '\\' :: 'u' :: first :: second :: third :: fourth :: rest => do
      let code ← codeUnit? first second third fourth
      let (codes, remaining) ← stringBody rest
      some (code :: codes, remaining)
  | '\\' :: letter :: rest => do
      let code ← escape? letter
      let (codes, remaining) ← stringBody rest
      some (code :: codes, remaining)
  | character :: rest =>
      if character = '\\' ∨ character.toNat < 0x20 then none
      else do
        let (codes, remaining) ← stringBody rest
        some (character.toNat :: codes, remaining)

/-- The code is the first half of a surrogate pair. -/
def isHighSurrogate (code : Nat) : Bool := 0xD800 ≤ code && code < 0xDC00

/-- The code is the second half of a surrogate pair. -/
def isLowSurrogate (code : Nat) : Bool := 0xDC00 ≤ code && code < 0xE000

/-- The characters of code points and surrogate pairs; there are none for half a pair. -/
def assemble : List Nat → Option (List Char)
  | [] => some []
  | [code] =>
      if isHighSurrogate code || isLowSurrogate code then none else some [Char.ofNat code]
  | code :: next :: rest =>
      if isHighSurrogate code then
        if isLowSurrogate next then
          (assemble rest).map
            (Char.ofNat (0x10000 + (code - 0xD800) * 0x400 + (next - 0xDC00)) :: ·)
        else none
      else if isLowSurrogate code then none
      else (assemble (next :: rest)).map (Char.ofNat code :: ·)

/-- Reads a string; it is `none` if it is no text. -/
def stringText : TextReader (Option String)
  | '"' :: rest => do
      let (codes, remaining) ← stringBody rest
      some ((assemble codes).map String.ofList, remaining)
  | _ => none

/-- The value of a decimal digit. -/
def digitValue (digit : Char) : Nat := digit.toNat - '0'.toNat

/-- The number that decimal digits denote. -/
def decimalValue (digits : List Char) : Nat :=
  digits.foldl (fun value digit => value * 10 + digitValue digit) 0

/-- Reads one or more digits. -/
def someDigits : TextReader (List Char) := fun characters =>
  match characters.takeWhile Char.isDigit with
  | [] => none
  | digits => some (digits, characters.dropWhile Char.isDigit)

/-- Reads the digits before the point: a single zero, or digits that do not start with zero. -/
def wholeDigits : TextReader (List Char)
  | '0' :: rest => some (['0'], rest)
  | characters => someDigits characters

/-- Reads the digits behind the point, if there is one. -/
def fractionDigits : TextReader (List Char)
  | '.' :: rest => someDigits rest
  | characters => some ([], characters)

/-- Reads the exponent with its sign, zero where there is none. -/
def exponentPart : TextReader Int
  | 'e' :: rest | 'E' :: rest =>
      match rest with
      | '-' :: behind => do
          let (digits, remaining) ← someDigits behind
          some (-(decimalValue digits : Int), remaining)
      | '+' :: behind => do
          let (digits, remaining) ← someDigits behind
          some ((decimalValue digits : Int), remaining)
      | behind => do
          let (digits, remaining) ← someDigits behind
          some ((decimalValue digits : Int), remaining)
  | characters => some (0, characters)

/-- Reads a number behind its sign. -/
def magnitude (negative : Bool) : TextReader Decimal := fun characters => do
  let (whole, behindWhole) ← wholeDigits characters
  let (fraction, behindFraction) ← fractionDigits behindWhole
  let (exponent, remaining) ← exponentPart behindFraction
  some ({ negative, whole := whole.map digitValue, fraction := fraction.map digitValue, exponent },
    remaining)

/-- Reads a number. -/
def numberText : TextReader Decimal
  | '-' :: rest => magnitude true rest
  | characters => magnitude false characters

/-- Reads a word that stands for a value. -/
def word (letters : List Char) (value : Json) : TextReader Json := fun characters =>
  if letters.isPrefixOf characters then some (value, characters.drop letters.length) else none

/--
Reads one or more items with commas between them, up to the closing character. The count is a
limit for the items: each takes a character, so that the number of characters is no limit.
-/
def items {item : Type} (closing : Char) (read : TextReader item) : Nat → TextReader (List item)
  | 0 => fun _ => none
  | count + 1 => fun characters => do
      let (first, rest) ← read (skipBlanks characters)
      match skipBlanks rest with
      | [] => none
      | next :: behind =>
          if next = closing then some ([first], behind)
          else if next = ',' then do
            let (further, remaining) ← items closing read count behind
            some (first :: further, remaining)
          else none

/-- Reads items with commas between them, or none, up to the closing character. -/
def group {item : Type} (closing : Char) (read : TextReader item) : TextReader (List item) :=
  fun characters =>
    match skipBlanks characters with
    | [] => none
    | first :: rest =>
        if first = closing then some ([], rest)
        else items closing read (first :: rest).length (first :: rest)

/-- Reads a name and a value with a colon between them. -/
def member (read : TextReader Json) : TextReader (Option String × Json) := fun characters => do
  let (name, behindName) ← stringText characters
  match skipBlanks behindName with
  | ':' :: rest => do
      let (value, remaining) ← read (skipBlanks rest)
      some ((name, value), remaining)
  | _ => none

/-- Reads a value with at most the given number of arrays and objects around each other. -/
def value : Nat → TextReader Json
  | 0 => fun _ => none
  | depth + 1 => fun characters =>
      match characters with
      | [] => none
      | '[' :: rest => do
          let (read, remaining) ← group ']' (value depth) rest
          some (.array read, remaining)
      | '\x7b' :: rest => do
          let (read, remaining) ← group '\x7d' (member (value depth)) rest
          some (.object read, remaining)
      | '"' :: rest => do
          let (text, remaining) ← stringText ('"' :: rest)
          some (.string text, remaining)
      | 'n' :: rest => word ['n', 'u', 'l', 'l'] .null ('n' :: rest)
      | 't' :: rest => word ['t', 'r', 'u', 'e'] (.bool true) ('t' :: rest)
      | 'f' :: rest => word ['f', 'a', 'l', 's', 'e'] (.bool false) ('f' :: rest)
      | first :: rest => do
          let (decimal, remaining) ← numberText (first :: rest)
          some (.number decimal, remaining)

/--
The value that a JSON text denotes. Each array or object around another takes a character, so that
the length of the text is no limit to their number.
-/
def ofText? (text : String) : Option Json := do
  let (read, remaining) ← value (text.toList.length + 1) (skipBlanks text.toList)
  if (skipBlanks remaining).isEmpty then some read else none

end Json

end NominalTypes
