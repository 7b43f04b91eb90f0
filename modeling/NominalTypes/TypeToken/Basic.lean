import NominalTypes.Ty.Erasure
import NominalTypes.Ty.Outline

/-!
# Type tokens

A token is a handle on a concrete type: a class, an array or a parameterized type, never a bare
type variable or wildcard. Each token that a mint issues has a serial number of its own. Tokens
are equal when their types are; they are the same token when their serial numbers are.
-/

namespace NominalTypes

/-- A handle on a concrete type, with the class that it erases to and its serial number. -/
structure TypeToken where
  ty : Ty
  raw : ClassName
  serial : Nat

/-- The source of tokens, which counts those that it has issued. -/
structure Mint where
  issued : Nat := 0
deriving DecidableEq, Repr

/-- The class that a concrete type erases to. -/
def Ty.concreteClass : Ty → Except TypeError ClassName
  | .var parameter => .error (.variableToken (.var parameter))
  | .wildcard upper lower => .error (.wildcardToken (.wildcard upper lower))
  | ty => ty.erase

namespace Mint

/-- A new token for a type that erases to the given class. -/
def issue (self : Mint) (ty : Ty) (raw : ClassName) : TypeToken × Mint :=
  ({ ty, raw, serial := self.issued }, { issued := self.issued + 1 })

/-- A new token for a concrete type. -/
def token (self : Mint) (ty : Ty) : Except TypeError (TypeToken × Mint) := do
  let raw ← ty.concreteClass
  .ok (self.issue ty raw)

/-- A new token for a class, which is always concrete. -/
def classToken (self : Mint) (named : ClassName) : TypeToken × Mint :=
  self.issue (.nominal named) named

end Mint

namespace TypeToken

/-- The tokens are for the same type. -/
def equals (left right : TypeToken) : Bool := left.ty = right.ty

/-- The tokens are one and the same. -/
def isSame (left right : TypeToken) : Bool := left.serial = right.serial

/-- The outline of the token's type behind the word for a token. -/
def outline (self : TypeToken) : String := outlineTagged "TypeToken" self.ty.outline

/-- The tokens without those for a type that has one earlier in the list. -/
def distinct : List TypeToken → List TypeToken
  | [] => []
  | token :: tokens => token :: (distinct tokens).filter fun other => !token.equals other

end TypeToken

end NominalTypes
