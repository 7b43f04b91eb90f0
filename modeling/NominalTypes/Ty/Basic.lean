import NominalTypes.ClassName

/-!
# Type expressions

A type expression describes a type: a class, an array, a generic class applied to arguments, a
type variable or a wildcard. Equality is structural, and it is decided by `Ty.beq`. Arrays of
nominal types are nominal again up to 255 dimensions, so that each array type has one canonical
form; `Ty.arrayOf` builds it. The induction principle `Ty.induct` gives a hypothesis for every
part of an expression, the bounds of a variable included.
-/

namespace NominalTypes

/-- The place where a type variable is declared. -/
inductive DeclarationSite where
  | type (declared : ClassName)
  | method (owner : ClassName) (name : String)
  | constructor (owner : ClassName)
deriving DecidableEq, Repr

/-- The kind of the declaration followed by its name. -/
def DeclarationSite.render : DeclarationSite → String
  | .type declared => "class " ++ declared.render
  | .method owner name => "method " ++ owner.render ++ "." ++ name
  | .constructor owner => "constructor " ++ owner.render

mutual

/-- A type expression. -/
inductive Ty where
  /-- A primitive or declared class, array classes included. -/
  | nominal (named : ClassName)
  /-- An array whose component is not nominal, or has all its dimensions already. -/
  | array (component : Ty)
  /-- A generic class applied to type arguments, with the type that it is a member of. -/
  | parameterized (owner : Option Ty) (raw : ClassName) (arguments : List Ty)
  /-- A declared type parameter. -/
  | var (parameter : TypeVariable)
  /-- An unknown type between its upper and its lower bounds. -/
  | wildcard (upper lower : List Ty)

/-- A declared type parameter with its upper bounds. -/
structure TypeVariable where
  site : DeclarationSite
  name : String
  bounds : List Ty

end

namespace Ty

instance : Inhabited Ty := ⟨.nominal .object⟩

/-- A property of all parts of an expression holds of the expression: the principle of induction. -/
theorem induct {motive : Ty → Prop}
    (nominal : ∀ named, motive (.nominal named))
    (array : ∀ component, motive component → motive (.array component))
    (parameterized : ∀ owner raw arguments, (∀ part ∈ owner, motive part) →
      (∀ part ∈ arguments, motive part) → motive (.parameterized owner raw arguments))
    (var : ∀ parameter : TypeVariable, (∀ bound ∈ parameter.bounds, motive bound) →
      motive (.var parameter))
    (wildcard : ∀ upper lower, (∀ bound ∈ upper, motive bound) →
      (∀ bound ∈ lower, motive bound) → motive (.wildcard upper lower))
    (ty : Ty) : motive ty := by
  refine Ty.rec (motive_1 := motive)
    (motive_2 := fun parameter => ∀ bound ∈ parameter.bounds, motive bound)
    (motive_3 := fun owner => ∀ part ∈ owner, motive part)
    (motive_4 := fun parts => ∀ part ∈ parts, motive part)
    nominal array (fun owner raw arguments => parameterized owner raw arguments) var wildcard
    (fun _ _ _ hypothesis => hypothesis) ?_ ?_ ?_ ?_ ty
  · simp
  · intro part holds other member
    cases Option.mem_some.1 member
    exact holds
  · simp
  · intro head tail headHolds tailHolds part member
    rcases List.mem_cons.1 member with rfl | member
    · exact headHolds
    · exact tailHolds part member

mutual

/-- Two expressions are built in the same way from the same names. -/
def beq : Ty → Ty → Bool
  | .nominal left, .nominal right => left = right
  | .array left, .array right => left.beq right
  | .parameterized leftOwner leftRaw left, .parameterized rightOwner rightRaw right =>
      beqOption leftOwner rightOwner && leftRaw = rightRaw && beqList left right
  | .var left, .var right => beqVariable left right
  | .wildcard leftUpper leftLower, .wildcard rightUpper rightLower =>
      beqList leftUpper rightUpper && beqList leftLower rightLower
  | _, _ => false
termination_by structural left => left

/-- `Ty.beq` for optional expressions. -/
def beqOption : Option Ty → Option Ty → Bool
  | none, none => true
  | some left, some right => left.beq right
  | _, _ => false
termination_by structural left => left

/-- `Ty.beq` for lists of expressions. -/
def beqList : List Ty → List Ty → Bool
  | [], [] => true
  | left :: lefts, right :: rights => left.beq right && beqList lefts rights
  | _, _ => false
termination_by structural left => left

/-- `Ty.beq` for type variables, bounds included. -/
def beqVariable : TypeVariable → TypeVariable → Bool
  | ⟨leftSite, leftName, left⟩, ⟨rightSite, rightName, right⟩ =>
      leftSite = rightSite && leftName = rightName && beqList left right
termination_by structural left => left

end

mutual

theorem eq_of_beq : ∀ (left right : Ty), left.beq right = true → left = right
  | .nominal _, right, same => by cases right <;> simp_all [beq]
  | .array _, right, same => by
      cases right <;> simp_all [beq]
      exact eq_of_beq _ _ same
  | .parameterized _ _ _, right, same => by
      cases right <;> simp_all [beq]
      exact ⟨eq_of_beqOption _ _ same.1.1, eq_of_beqList _ _ same.2⟩
  | .var _, right, same => by
      cases right <;> simp_all [beq]
      exact eq_of_beqVariable _ _ same
  | .wildcard _ _, right, same => by
      cases right <;> simp_all [beq]
      exact ⟨eq_of_beqList _ _ same.1, eq_of_beqList _ _ same.2⟩

theorem eq_of_beqOption : ∀ (left right : Option Ty), beqOption left right = true → left = right
  | none, right, same => by cases right <;> simp_all [beqOption]
  | some _, right, same => by
      cases right <;> simp_all [beqOption]
      exact eq_of_beq _ _ same

theorem eq_of_beqList : ∀ (left right : List Ty), beqList left right = true → left = right
  | [], right, same => by cases right <;> simp_all [beqList]
  | _ :: _, right, same => by
      cases right <;> simp_all [beqList]
      exact ⟨eq_of_beq _ _ same.1, eq_of_beqList _ _ same.2⟩

theorem eq_of_beqVariable :
    ∀ (left right : TypeVariable), beqVariable left right = true → left = right
  | ⟨_, _, _⟩, ⟨_, _, _⟩, same => by
      simp_all [beqVariable]
      exact eq_of_beqList _ _ same.2

end

mutual

theorem beq_refl : ∀ ty : Ty, ty.beq ty = true
  | .nominal _ => by simp [beq]
  | .array component => by simp [beq, beq_refl component]
  | .parameterized owner _ arguments => by
      simp [beq, beqOption_refl owner, beqList_refl arguments]
  | .var parameter => by simp [beq, beqVariable_refl parameter]
  | .wildcard upper lower => by simp [beq, beqList_refl upper, beqList_refl lower]

theorem beqOption_refl : ∀ owner : Option Ty, beqOption owner owner = true
  | none => rfl
  | some ty => by simp [beqOption, beq_refl ty]

theorem beqList_refl : ∀ parts : List Ty, beqList parts parts = true
  | [] => rfl
  | part :: parts => by simp [beqList, beq_refl part, beqList_refl parts]

theorem beqVariable_refl : ∀ parameter : TypeVariable, beqVariable parameter parameter = true
  | ⟨_, _, bounds⟩ => by simp [beqVariable, beqList_refl bounds]

end

instance : DecidableEq Ty := fun left right =>
  decidable_of_iff (left.beq right = true) ⟨eq_of_beq left right, fun same => same ▸ beq_refl left⟩

instance : DecidableEq TypeVariable := fun left right =>
  decidable_of_iff (beqVariable left right = true)
    ⟨eq_of_beqVariable left right, fun same => same ▸ beqVariable_refl left⟩

/-- The type that every reference type is a subtype of. -/
def object : Ty := .nominal .object

/-- The type of a primitive. -/
def ofPrimitive (primitive : Primitive) : Ty := .nominal (.ofPrimitive primitive)

/--
The array type over a component in its canonical form: the array class over a class that has room
for one more dimension, a generic array over all other components.
-/
def arrayOf : Ty → Ty
  | .nominal named =>
      match named.arrayOf? with
      | some arrayClass => .nominal arrayClass
      | none => .array (.nominal named)
  | component => .array component

/-- The given bounds, or `java.lang.Object` alone where there are none. -/
def boundsOrObject : List Ty → List Ty
  | [] => [object]
  | bounds => bounds

/-- The wildcard between the given bounds; without upper bounds it has `java.lang.Object`. -/
def wildcardOf (upper lower : List Ty) : Ty := .wildcard (boundsOrObject upper) lower

/-- The wildcard that any type lies within. -/
def unboundedWildcard : Ty := wildcardOf [] []

/-- The wildcard for the subtypes of a type. -/
def extending (bound : Ty) : Ty := wildcardOf [bound] []

/-- The wildcard for the supertypes of a type. -/
def superOf (bound : Ty) : Ty := wildcardOf [] [bound]

/-- The class that a nominal type is. -/
def asClass? : Ty → Option ClassName
  | .nominal named => some named
  | _ => none

/-- The generic class that a parameterized type applies. -/
def parameterizedRaw? : Ty → Option ClassName
  | .parameterized _ raw _ => some raw
  | _ => none

/-- The expression is a type variable. -/
def isVariable : Ty → Bool
  | .var _ => true
  | _ => false

/-- The expression is a wildcard. -/
def isWildcard : Ty → Bool
  | .wildcard _ _ => true
  | _ => false

/-- The expression is the class `java.lang.Object`. -/
def isObject : Ty → Bool
  | .nominal named => named.isObject
  | _ => false

/-- The bounds are the implicit ones: `java.lang.Object` and nothing else. -/
def isDefaultBounds : List Ty → Bool
  | [only] => only.isObject
  | _ => false

/-- The expression is the wildcard that any type lies within. -/
def isUnboundedWildcard : Ty → Bool
  | .wildcard upper lower => isDefaultBounds upper && lower.isEmpty
  | _ => false

/-- The expression is an array type, nominal or generic. -/
def isArray : Ty → Bool
  | .nominal named => named.isArray
  | .array _ => true
  | _ => false

/-- The type of an array type's elements. -/
def component? : Ty → Option Ty
  | .nominal named => named.component?.map .nominal
  | .array component => some component
  | _ => none

/--
The expression with a function applied to the types written in it: the owner and the arguments of
a parameterized type, and the bounds of a wildcard. All other expressions stay as they are.
-/
def mapParts (transform : Ty → Ty) : Ty → Ty
  | .parameterized owner raw arguments =>
      .parameterized (owner.map transform) raw (arguments.map transform)
  | .wildcard upper lower => .wildcard (upper.map transform) (lower.map transform)
  | ty => ty

mutual

/-- The number of nodes of an expression, with type variables as leaves. -/
def size : Ty → Nat
  | .nominal _ => 1
  | .array component => component.size + 1
  | .parameterized owner _ arguments => sizeOption owner + sizeList arguments + 1
  | .var _ => 1
  | .wildcard upper lower => sizeList upper + sizeList lower + 1
termination_by structural ty => ty

/-- `Ty.size` for an optional expression. -/
def sizeOption : Option Ty → Nat
  | none => 0
  | some ty => ty.size
termination_by structural owner => owner

/-- The sum of the sizes of the expressions. -/
def sizeList : List Ty → Nat
  | [] => 0
  | ty :: rest => ty.size + sizeList rest
termination_by structural parts => parts

end

theorem component?_arrayOf (component : Ty) : (arrayOf component).component? = some component := by
  cases component with
  | nominal named =>
      cases built : named.arrayOf? with
      | none => simp [arrayOf, built, component?]
      | some arrayClass =>
          simp [arrayOf, built, component?, ClassName.component?_of_arrayOf? built]
  | array | parameterized | var | wildcard => rfl

end Ty

namespace TypeVariable

/-- The type variable whose only bound is `java.lang.Object`. -/
def unbounded (site : DeclarationSite) (name : String) : TypeVariable where
  site := site
  name := name
  bounds := [.object]

/-- The only bound is the implicit `java.lang.Object`. -/
def hasDefaultBounds (self : TypeVariable) : Bool :=
  Ty.isDefaultBounds self.bounds

end TypeVariable

end NominalTypes
