/-!
# Decimal numbers in double precision

A decimal number is brought to double precision in three steps. Its first digits are gathered into
a word of 64 bits, as many as there is room for; the word is rounded to the nearest double; and
its product with the power of ten that is still missing, itself a rounded double, is rounded again.
Near the greatest double the roundings and the digits left out decide whether the result is finite,
not the exact value of the number.
-/

namespace NominalTypes

/-- A decimal number as it is written: sign, digits before and behind the point, and exponent. -/
structure Decimal where
  negative : Bool
  whole : List Nat
  fraction : List Nat
  exponent : Int
deriving DecidableEq, Repr

namespace Decimal

/-- The smallest number that a word of 64 bits has no room for. -/
def wordLimit : Nat := Nat.pow 2 64

/--
Appends digits to a word as long as there is room. The digits from the first one without room are
given back.
-/
def gather (word : Nat) : List Nat → Nat × List Nat
  | [] => (word, [])
  | digit :: rest =>
      if word * 10 + digit < wordLimit then gather (word * 10 + digit) rest
      else (word, digit :: rest)

/--
The word that the digits are gathered into, and the exponent of the power of ten that it is still
to be multiplied by. A digit before the point that was left out makes this power greater, one
behind the point that was gathered makes it smaller. The digits behind the point have the room that
those before it leave, also where some of these were left out.
-/
def gathered (self : Decimal) : Nat × Int :=
  let (leading, wholeLeft) := gather 0 self.whole
  let (word, fractionLeft) := gather leading self.fraction
  (word, self.exponent + wholeLeft.length - self.fraction.length + fractionLeft.length)

/-- The distance between the doubles that are whole, from a number up to the next power of two. -/
def spacing (number : Nat) : Nat := Nat.pow 2 (number.log2 - 52)

/--
The double nearest to a whole number, were the exponents of doubles not bounded: of the multiples
of the spacing, the nearer one, and of two equally near ones the even one.
-/
def nearestDouble (number : Nat) : Nat :=
  let unit := spacing number
  let below := number / unit
  let excess := number % unit
  if unit < 2 * excess ∨ unit = 2 * excess ∧ below % 2 = 1 then (below + 1) * unit
  else below * unit

/-- The smallest number that is rounded beyond the greatest finite double. -/
def doubleLimit : Nat := Nat.pow 2 1024 - Nat.pow 2 970

/-- The exponent of the greatest power of ten that is rounded to a finite double. -/
def greatestPower : Nat := 308

/--
Brought to double precision, the number is infinite. That takes a power of ten that is not below
one; one beyond the finite doubles is too much for every word but zero.
-/
def exceedsDouble (self : Decimal) : Bool :=
  let (word, exponent) := self.gathered
  if word = 0 ∨ exponent < 0 then false
  else if greatestPower < exponent then true
  else doubleLimit ≤ nearestDouble word * nearestDouble (Nat.pow 10 exponent.toNat)

end Decimal

end NominalTypes
