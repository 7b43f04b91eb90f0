import NominalTypes.Proofs.Catalog.Declarations
import NominalTypes.Proofs.Grammar.Places
import NominalTypes.Proofs.Hierarchy.Search
import NominalTypes.Proofs.Ty.Erasure
import NominalTypes.Proofs.TypeToken.Canonicity

/-!
# Tokens for types that were read

There is a token for every type that text denotes, but for a bare type variable or wildcard. What could
be in the way is that the type has no erasure. But variables are built with a first bound that is no
array and no wildcard, so that a variable erases to a class without dimensions along a chain of first
bounds, and no more dimensions than a class can carry are read on top of it.
-/

namespace NominalTypes

/-- The types that are built by the constructors which check what a catalog declares. -/
inductive Catalog.IsConstructed (catalog : Catalog) : Ty → Prop where
  | nominal (named : ClassName) : IsConstructed catalog (.nominal named)
  | array {component : Ty} (constructed : IsConstructed catalog component) :
      IsConstructed catalog (.arrayOf component)
  | parameterized {owner : Option Ty} {raw : ClassName} {arguments : List Ty} {ty : Ty}
      (ownerConstructed : ∀ outer ∈ owner, IsConstructed catalog outer)
      (constructed : ∀ argument ∈ arguments, IsConstructed catalog argument)
      (built : catalog.parameterize owner raw arguments = .ok ty) : IsConstructed catalog ty
  | var {site : DeclarationSite} {name : String} {bounds : List Ty} {parameter : TypeVariable}
      (constructed : ∀ bound ∈ bounds, IsConstructed catalog bound)
      (built : catalog.boundVariable site name bounds = .ok parameter) :
      IsConstructed catalog (.var parameter)
  | unbounded (site : DeclarationSite) (name : String) :
      IsConstructed catalog (.var (.unbounded site name))
  | wildcard {upper lower : List Ty} (upperConstructed : ∀ bound ∈ upper, IsConstructed catalog bound)
      (lowerConstructed : ∀ bound ∈ lower, IsConstructed catalog bound) :
      IsConstructed catalog (.wildcardOf upper lower)

/-- The type erases to a class that is no array class. -/
def Ty.ErasesToElement (self : Ty) : Prop := ∃ named, self.erase = .ok named ∧ named.dims = 0

namespace Catalog

variable {catalog : Catalog} {ty : Ty}

/-- A class with type parameters is no array class. -/
theorem dims_of_arity {named : ClassName} (generic : catalog.arity named ≠ 0) : named.dims = 0 := by
  rcases exists_get?_of_arity generic with ⟨info, found⟩
  exact get?_dims found

/-- An applied class erases to the class. -/
theorem erasesToElement_of_parameterize {owner : Option Ty} {raw : ClassName} {arguments : List Ty}
    (built : catalog.parameterize owner raw arguments = .ok ty) : ty.ErasesToElement := by
  rcases parameterize_eq_ok_iff.1 built with ⟨-, nonempty, arity, rfl⟩
  have generic : catalog.arity raw ≠ 0 := by
    rw [arity]
    exact fun none => nonempty (List.length_eq_zero_iff.1 none)
  exact ⟨raw, rfl, dims_of_arity generic⟩

theorem checkFirstBound_eq_ok_iff {bound : Ty} :
    checkFirstBound bound = .ok () ↔ bound.isArray = false ∧ bound.isWildcard = false := by
  unfold checkFirstBound
  split
  · next isArray => simp [isArray]
  · next notArray =>
    split
    · next isWildcard => simp [isWildcard]
    · next notWildcard => simp [notArray, notWildcard]

/-- The first bound of a type variable has passed its check. -/
theorem checkFirstBound_of_boundVariable {site : DeclarationSite} {name : String} {first : Ty}
    {others : List Ty} {parameter : TypeVariable}
    (built : catalog.boundVariable site name (first :: others) = .ok parameter) :
    checkFirstBound first = .ok () := by
  simp only [boundVariable] at built
  split at built
  · cases built
  · rcases bind_eq_ok.1 built with ⟨_, areBounds, -⟩
    rcases bind_eq_ok.1 areBounds with ⟨_, isFirst, -⟩
    exact isFirst

/--
Other types than arrays and wildcards erase to a class without dimensions. A variable does so as its
first bound, which has passed the check.
-/
theorem IsConstructed.erasesToElement (constructed : catalog.IsConstructed ty)
    (bare : ty.isArray = false) (concrete : ty.isWildcard = false) : ty.ErasesToElement := by
  induction constructed with
  | nominal named => exact ⟨named, rfl, by simpa [Ty.isArray, ClassName.isArray] using bare⟩
  | array _ _ =>
      rw [Ty.isArray_arrayOf] at bare
      cases bare
  | parameterized _ _ built _ _ => exact erasesToElement_of_parameterize built
  | wildcard _ _ _ _ => cases concrete
  | unbounded site name => exact ⟨.object, rfl, rfl⟩
  | @var site name bounds parameter _ built ih =>
      rcases parameter with ⟨site, name, checked⟩
      have areBounds : checked = Ty.boundsOrObject bounds := bounds_of_boundVariable built
      subst areBounds
      cases bounds with
      | nil => exact ⟨.object, rfl, rfl⟩
      | cons first others =>
          have passed := checkFirstBound_eq_ok_iff.1 (checkFirstBound_of_boundVariable built)
          exact ih first List.mem_cons_self passed.1 passed.2

end Catalog

namespace Scope

variable {scope : Scope} {ty : Ty}

/-- All type variables in scope are built by the checking constructors. -/
def HasConstructedParameters (scope : Scope) : Prop :=
  ∀ parameter ∈ scope.parameters, scope.catalog.IsConstructed (.var parameter)

/-- What text denotes erases to a class, and without dimensions if it is no array type. -/
theorem IsDenotable.exists_erase (constructed : scope.HasConstructedParameters)
    (denotable : scope.IsDenotable ty) (concrete : ty.isWildcard = false) :
    (∃ named, ty.erase = .ok named) ∧ (ty.isArray = false → ty.ErasesToElement) := by
  have ofElement : ∀ {element : Ty}, element.ErasesToElement →
      (∃ named, element.erase = .ok named) ∧ (element.isArray = false → element.ErasesToElement) :=
    fun erases => ⟨erases.imp fun _ => And.left, fun _ => erases⟩
  induction denotable with
  | @nominal named _ plain => exact ofElement ⟨named, rfl, plain⟩
  | var inScope => exact ofElement ((constructed _ inScope).erasesToElement rfl rfl)
  | @parameterized raw _ _ plain _ _ _ _ => exact ofElement ⟨raw, rfl, plain⟩
  | wildcard _ _ _ _ _ => cases concrete
  | @array element dims fits bare concreteElement _ ih =>
      rcases (ih concreteElement).2 bare with ⟨named, erased, plain⟩
      have raised : named.raised dims = .ok ⟨named.name, dims, fits⟩ :=
        ClassName.raised_eq_ok_iff.2 ⟨rfl, by simp [plain]⟩
      refine ⟨⟨⟨named.name, dims, fits⟩, ?_⟩, ?_⟩
      · rw [Ty.erase_arrayOfTimes, erased]
        exact raised
      · intro notArray
        cases dims with
        | zero => exact ⟨named, erased, plain⟩
        | succ dims =>
            rw [Ty.arrayOfTimes_succ, Ty.isArray_arrayOf] at notArray
            cases notArray

/--
A type that was read, with variables in scope that were built with checked bounds, has no token just if
it is a variable or a wildcard itself. Any other has one, which is for the class that it erases to.
-/
theorem token_of_parse (constructed : scope.HasConstructedParameters) {depth : Nat} {text : String}
    (read : scope.parse depth text = .ok ty) (mint : Mint) :
    ((∃ cause, mint.token ty = .error cause) ↔ ty.isVariable = true ∨ ty.isWildcard = true) ∧
    ∀ token later, mint.token ty = .ok (token, later) → token.ty = ty ∧ ty.erase = .ok token.raw := by
  have denotable := isDenotable_of_parse read
  constructor
  · constructor
    · rintro ⟨cause, failed⟩
      by_contra concrete
      simp only [not_or, Bool.not_eq_true] at concrete
      rcases (denotable.exists_erase constructed concrete.2).1 with ⟨named, erased⟩
      have isClass := Ty.concreteClass_eq_ok_iff.2 ⟨concrete.1, concrete.2, erased⟩
      rw [Mint.token, isClass] at failed
      cases failed
    · rintro abstract
      cases ty with
      | var parameter => exact ⟨.variableToken (.var parameter), rfl⟩
      | wildcard upper lower => exact ⟨.wildcardToken (.wildcard upper lower), rfl⟩
      | nominal | array | parameterized => simp [Ty.isVariable, Ty.isWildcard] at abstract
  · intro token later issued
    rcases bind_eq_ok.1 issued with ⟨named, isClass, isToken⟩
    cases isToken
    exact ⟨rfl, (Ty.concreteClass_eq_ok_iff.1 isClass).2.2⟩

/-- A variable that is bounded by boxes. -/
def boxVariable : TypeVariable :=
  ⟨.method (.plain "a.Box") "pack", "U", [Catalog.sampleOf "a.Box" .unboundedWildcard]⟩

/-- A variable that is bounded by the one that is bounded by boxes. -/
def chainedVariable : TypeVariable := ⟨.method (.plain "a.Box") "pack", "T", [.var boxVariable]⟩

/-- The catalog of boxes with the two variables in scope. -/
def ofBoxVariables : Scope where
  catalog := Catalog.boxes
  parameters := [boxVariable, chainedVariable]

theorem ofBoxVariables_hasConstructedParameters : ofBoxVariables.HasConstructedParameters := by
  have isWildcard : Catalog.boxes.IsConstructed .unboundedWildcard :=
    .wildcard (List.forall_mem_nil _) (List.forall_mem_nil _)
  have isApplied : Catalog.boxes.parameterize none (.plain "a.Box") [.unboundedWildcard] =
      .ok (Catalog.sampleOf "a.Box" .unboundedWildcard) := by decide +kernel
  have isBound : Catalog.boxes.IsConstructed (Catalog.sampleOf "a.Box" .unboundedWildcard) :=
    .parameterized (fun _ isOwner => by cases isOwner) (List.forall_mem_singleton.2 isWildcard)
      isApplied
  have isBoxVariable : Catalog.boxes.boundVariable boxVariable.site "U"
      [Catalog.sampleOf "a.Box" .unboundedWildcard] = .ok boxVariable := by decide +kernel
  have isChainedVariable : Catalog.boxes.boundVariable chainedVariable.site "T"
      [.var boxVariable] = .ok chainedVariable := by decide +kernel
  have isBox : Catalog.boxes.IsConstructed (.var boxVariable) :=
    .var (List.forall_mem_singleton.2 isBound) isBoxVariable
  have isChained : Catalog.boxes.IsConstructed (.var chainedVariable) :=
    .var (List.forall_mem_singleton.2 isBox) isChainedVariable
  exact List.forall_mem_cons.2 ⟨isBox, List.forall_mem_singleton.2 isChained⟩

/-- An array over a variable has a token, for the array class over the end of the chain of bounds. -/
theorem token_of_parse_chain :
    let arrays : Ty := .array (.array (.var chainedVariable))
    ofBoxVariables.parse 1 "T[] []" = .ok arrays ∧
      ∃ token later, Mint.token {} arrays = .ok (token, later) ∧ token.ty = arrays ∧
        token.raw = { name := "a.Box", dims := 2 } := by
  intro arrays
  have read : ofBoxVariables.parse 1 "T[] []" = .ok arrays := by decide +kernel
  have ⟨failsJustIf, isClass⟩ := token_of_parse ofBoxVariables_hasConstructedParameters read {}
  refine ⟨read, ?_⟩
  cases issued : Mint.token {} arrays with
  | error cause => simp [arrays, Ty.isVariable, Ty.isWildcard, issued] at failsJustIf
  | ok result =>
      rcases result with ⟨token, later⟩
      rcases isClass token later issued with ⟨sameType, erased⟩
      exact ⟨token, later, rfl, sameType, (Except.ok.inj erased).symm⟩

end Scope

end NominalTypes
