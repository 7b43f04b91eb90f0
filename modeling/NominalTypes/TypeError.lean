import NominalTypes.Grammar.Lexeme
import NominalTypes.Ty.Printer

/-!
# Errors about types

The reasons why a type expression cannot be built, read, erased or resolved. Each is a cause with
the values that it is about; `TypeError.kind` sorts the causes and `TypeError.message` words them.
-/

namespace NominalTypes

/-- A declared class is a class proper or an interface. -/
inductive ClassKind where
  | concrete
  | interface
deriving DecidableEq, Repr

/-- What the grammar allows at a place of the text. -/
inductive Expectation where
  | lexeme (kind : LexemeKind)
  | type
  | endOfInput
deriving DecidableEq, Repr

/-- The wording of an expectation. -/
def Expectation.describe : Expectation → String
  | .lexeme kind => kind.describe
  | .type => "a type"
  | .endOfInput => "end of input"

/-- What stands at a place of the text. -/
inductive Finding where
  | lexeme (kind : LexemeKind)
  | garbage (text : String)
  | endOfInput
deriving DecidableEq, Repr

/-- The wording of a finding: characters outside the grammar are quoted. -/
def Finding.describe : Finding → String
  | .lexeme kind => kind.describe
  | .garbage text => "`" ++ text ++ "`"
  | .endOfInput => "end of input"

/-- The sorts of causes. -/
inductive TypeErrorKind where
  | malformedType
  | invalidType
  | classNotFound
  | duplicateImports
  | precondition
  | grammar
  | recursionLimitExceeded
  | endless
deriving DecidableEq, Repr

/-- The causes of errors about types. -/
inductive TypeError where
  /-- A class is applied to a number of arguments that it does not declare. -/
  | malformed (raw : ClassName) (arity found : Nat)
  /-- The first bound of a type variable is an array type. -/
  | arrayBound (bound : Ty)
  /-- The first bound of a type variable is a wildcard. -/
  | wildcardBound (bound : Ty)
  /-- A further bound of a type variable is no interface. -/
  | boundNotInterface (bound : Ty)
  /-- A type variable is applied to type arguments. -/
  | variableWithArguments (name : String)
  /-- A bound of a wildcard is a wildcard. -/
  | nestedWildcard
  /-- An array type has more dimensions than a class can carry. -/
  | tooManyDimensions
  /-- A wildcard has no erasure. -/
  | wildcardErasure (wildcard : Ty)
  /-- A type variable is no concrete type. -/
  | variableToken (ty : Ty)
  /-- A wildcard is no concrete type. -/
  | wildcardToken (ty : Ty)
  /-- An interface declares a superclass. -/
  | interfaceWithSuperclass
  /-- The declared supertype is no class that can have subclasses. -/
  | notASupertype (ty : Ty)
  /-- The declared supertype is of the other kind than its place asks for. -/
  | supertypeKind (ty : Ty) (expected : ClassKind)
  /-- No class has the name. -/
  | classNotFound (name : String)
  /-- A simple name stands for two imports. -/
  | duplicateImports (first second : String)
  /-- A type variable has no name. -/
  | emptyVariableName
  /-- The type names no single class. -/
  | noRawType (ty : Ty)
  /-- The type is not applied to exactly one argument. -/
  | noSingleArgument (ty : Ty)
  /-- The type has no declared supertypes. -/
  | noSupertypes (ty : Ty)
  /-- The grammar does not allow what stands at an offset of the text. -/
  | unexpected (offset : Nat) (expected : Expectation) (found : Finding)
  /-- Type text is nested too deeply. -/
  | recursionLimitExceeded
  /-- The search comes back to where it was and would go on for ever. -/
  | endless
deriving DecidableEq

namespace TypeError

/-- The sort of a cause. -/
def kind : TypeError → TypeErrorKind
  | .malformed _ _ _ => .malformedType
  | .arrayBound _ | .wildcardBound _ | .boundNotInterface _ | .variableWithArguments _
  | .nestedWildcard | .tooManyDimensions | .wildcardErasure _ | .variableToken _
  | .wildcardToken _ | .interfaceWithSuperclass | .notASupertype _ | .supertypeKind _ _ =>
      .invalidType
  | .classNotFound _ => .classNotFound
  | .duplicateImports _ _ => .duplicateImports
  | .emptyVariableName | .noRawType _ | .noSingleArgument _ | .noSupertypes _ => .precondition
  | .unexpected _ _ _ => .grammar
  | .recursionLimitExceeded => .recursionLimitExceeded
  | .endless => .endless

/-- The wording of a cause. -/
def message : TypeError → String
  | .malformed raw arity found =>
      "malformed parameterized type `" ++ raw.render ++ "`: declares " ++ toString arity ++
        " type parameters, found " ++ toString found ++ " arguments"
  | .arrayBound bound => "type variable bound cannot be an array type: " ++ bound.render
  | .wildcardBound bound => "type variable bound cannot be a wildcard type: " ++ bound.render
  | .boundNotInterface bound =>
      "additional type variable bound must be an interface: " ++ bound.render
  | .variableWithArguments name => "type variable " ++ name ++ " cannot have type arguments"
  | .nestedWildcard => "wildcard bound cannot be a wildcard"
  | .tooManyDimensions => "array type cannot have more than 255 dimensions"
  | .wildcardErasure wildcard => "cannot erase wildcard type: " ++ wildcard.render
  | .variableToken ty => "type token cannot be a type variable: " ++ ty.render
  | .wildcardToken ty => "type token cannot be a wildcard type: " ++ ty.render
  | .interfaceWithSuperclass => "an interface cannot declare a superclass"
  | .notASupertype ty => "`" ++ ty.render ++ "` cannot be a supertype"
  | .supertypeKind ty .concrete => "`" ++ ty.render ++ "` is not a class"
  | .supertypeKind ty .interface => "`" ++ ty.render ++ "` is not an interface"
  | .classNotFound name => "Class not found: " ++ name
  | .duplicateImports first second => "Duplicate imports: " ++ first ++ " and " ++ second
  | .emptyVariableName => "type variable name cannot be empty"
  | .noRawType ty => "cannot obtain raw type from " ++ ty.render
  | .noSingleArgument ty =>
      "type must be a parameterized type with one actual type argument: " ++ ty.render
  | .noSupertypes ty => "cannot resolve supertypes of " ++ ty.render
  | .unexpected offset expected found =>
      "syntax error at offset " ++ toString offset ++ ": expected " ++ expected.describe ++
        ", found " ++ found.describe
  | .recursionLimitExceeded => "recursion limit exceeded"
  | .endless => "the search never ends"

end TypeError

end NominalTypes
