import NominalTypes.Hierarchy.Closure

/-!
# Primitive types

The nine primitive types in their declaration order, their keywords and wrapper classes, and the
widening order between them: `byte` widens to `short`, `short` and `char` to `int`, and `int`,
`long`, `float` and `double` each to the next. Widening is the closure of these steps and a partial
order; it never reaches `void`, `boolean`, `byte` or `char` from another type.
-/

namespace NominalTypes

/-- A type without supertypes that is known by a keyword. -/
inductive Primitive where
  | void
  | boolean
  | byte
  | char
  | short
  | int
  | long
  | float
  | double
deriving DecidableEq, Repr

namespace Primitive

/-- Every primitive type, in declaration order. -/
def all : List Primitive :=
  [.void, .boolean, .byte, .char, .short, .int, .long, .float, .double]

/-- The position of a primitive type in the declaration order. -/
def ordinal : Primitive → Nat
  | .void => 0
  | .boolean => 1
  | .byte => 2
  | .char => 3
  | .short => 4
  | .int => 5
  | .long => 6
  | .float => 7
  | .double => 8

/-- The keyword that denotes the type in type text. -/
def keyword : Primitive → String
  | .void => "void"
  | .boolean => "boolean"
  | .byte => "byte"
  | .char => "char"
  | .short => "short"
  | .int => "int"
  | .long => "long"
  | .float => "float"
  | .double => "double"

/-- The primitive type that a word is the keyword of. -/
def ofKeyword? (word : String) : Option Primitive :=
  all.find? fun primitive => primitive.keyword = word

/-- The binary name of the class that wraps a value of the type. -/
def boxedName : Primitive → String
  | .void => "java.lang.Void"
  | .boolean => "java.lang.Boolean"
  | .byte => "java.lang.Byte"
  | .char => "java.lang.Character"
  | .short => "java.lang.Short"
  | .int => "java.lang.Integer"
  | .long => "java.lang.Long"
  | .float => "java.lang.Float"
  | .double => "java.lang.Double"

/-- The types whose values widen to the type in one step, in declaration order. -/
def predecessors : Primitive → List Primitive
  | .void | .boolean | .byte | .char => []
  | .short => [.byte]
  | .int => [.char, .short]
  | .long => [.int]
  | .float => [.long]
  | .double => [.float]

/-- A value of the source type widens to the target type in at most the given number of steps. -/
def widensWithin : Nat → Primitive → Primitive → Bool
  | 0, target, source => target = source
  | steps + 1, target, source =>
      target = source || target.predecessors.any fun direct => widensWithin steps direct source

/--
A value of the source type can be stored at the target type, possibly after widening. Each step
comes from a type that is declared earlier, so that the position of the target bounds their number.
-/
def widensFrom (target source : Primitive) : Bool :=
  widensWithin target.ordinal target source

/-- The type comes strictly earlier in the declaration order. -/
def precedes (earlier later : Primitive) : Bool :=
  earlier.ordinal < later.ordinal

theorem ofKeyword?_keyword (primitive : Primitive) :
    ofKeyword? primitive.keyword = some primitive := by
  cases primitive <;> decide

theorem keyword_of_ofKeyword? {word : String} {primitive : Primitive}
    (found : ofKeyword? word = some primitive) : primitive.keyword = word := by
  simpa using List.find?_some found

/-- A target takes its own values and those that widen to a type one step before it. -/
theorem widensFrom_eq (target source : Primitive) :
    target.widensFrom source =
      (decide (target = source) ||
        target.predecessors.any fun direct => direct.widensFrom source) := by
  cases target <;> cases source <;> rfl

theorem reaches_of_widensWithin {steps : Nat} {target source : Primitive}
    (widens : widensWithin steps target source = true) :
    Closure.Reaches predecessors target source := by
  induction steps generalizing target with
  | zero =>
      rw [of_decide_eq_true widens]
      exact .refl source
  | succ steps ih =>
      simp only [widensWithin, Bool.or_eq_true, decide_eq_true_eq, List.any_eq_true] at widens
      rcases widens with rfl | ⟨direct, isDirect, widens⟩
      · exact .refl target
      · exact .step isDirect (ih widens)

/-- Widening is the reflexive and transitive closure of its steps. -/
theorem widensFrom_iff {target source : Primitive} :
    target.widensFrom source = true ↔ Closure.Reaches predecessors target source := by
  constructor
  · exact reaches_of_widensWithin
  · intro path
    induction path with
    | refl target => rw [widensFrom_eq, decide_eq_true rfl, Bool.true_or]
    | step isDirect _ ih =>
        rw [widensFrom_eq, Bool.or_eq_true, List.any_eq_true]
        exact Or.inr ⟨_, isDirect, ih⟩

theorem widensFrom_trans {target middle source : Primitive}
    (outer : target.widensFrom middle = true) (inner : middle.widensFrom source = true) :
    target.widensFrom source = true :=
  widensFrom_iff.2 ((widensFrom_iff.1 outer).trans (widensFrom_iff.1 inner))

theorem widensFrom_antisymm {left right : Primitive}
    (forward : left.widensFrom right = true) (backward : right.widensFrom left = true) :
    left = right := by
  revert forward backward
  cases left <;> cases right <;> decide

end Primitive

end NominalTypes
