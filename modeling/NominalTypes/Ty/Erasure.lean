import NominalTypes.TypeError

/-!
# Erasure

The class that remains of a type when its type arguments are forgotten. A variable erases to the
erasure of its first bound; a wildcard has no erasure, nor has an array beyond 255 dimensions.
`Ty.rawClass` answers only for types that name a class themselves, so it refuses variables too.
-/

namespace NominalTypes

/-- The array class over an erased component. -/
def ClassName.arrayErasure (component : ClassName) : Except TypeError ClassName :=
  match component.arrayOf? with
  | some arrayClass => .ok arrayClass
  | none => .error .tooManyDimensions

namespace Ty

mutual

/-- The class that remains of a type without its type arguments. -/
def erase : Ty → Except TypeError ClassName
  | .nominal named => .ok named
  | .array component => component.erase.bind ClassName.arrayErasure
  | .parameterized _ raw _ => .ok raw
  | .var ⟨_, _, bounds⟩ => eraseBounds bounds
  | .wildcard upper lower => .error (.wildcardErasure (.wildcard upper lower))
termination_by structural ty => ty

/-- The erasure of the first bound, `java.lang.Object` without bounds. -/
def eraseBounds : List Ty → Except TypeError ClassName
  | [] => .ok .object
  | first :: _ => first.erase
termination_by structural bounds => bounds

end

/-- The erasure as a type. -/
def erasedType (self : Ty) : Except TypeError Ty := self.erase.map .nominal

/-- The class that a value of the type is an instance of. -/
def rawClass : Ty → Except TypeError ClassName
  | .nominal named => .ok named
  | .array component => component.rawClass.bind ClassName.arrayErasure
  | .parameterized _ raw _ => .ok raw
  | .var parameter => .error (.noRawType (.var parameter))
  | .wildcard upper lower => .error (.noRawType (.wildcard upper lower))
termination_by structural ty => ty

/-- The type argument of a type that is applied to exactly one. -/
def singleArgument : Ty → Except TypeError Ty
  | .parameterized _ _ [argument] => .ok argument
  | ty => .error (.noSingleArgument ty)

@[simp] theorem erase_nominal (named : ClassName) : (nominal named).erase = .ok named := rfl

@[simp] theorem erase_parameterized (owner : Option Ty) (raw : ClassName) (arguments : List Ty) :
    (parameterized owner raw arguments).erase = .ok raw := rfl

end Ty

end NominalTypes
