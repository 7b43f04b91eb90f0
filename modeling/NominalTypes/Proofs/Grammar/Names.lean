import NominalTypes.Proofs.Sequencing
import NominalTypes.Grammar.Scope

/-!
# What names stand for

A name that resolves stands for a class that the catalog knows, without array dimensions, or for a
type variable in scope. What an argument list may be applied to is decided from this.
-/

namespace NominalTypes

/-- The class is known to the catalog and no array class; the variable is in scope. -/
def Referent.IsKnownIn (scope : Scope) : Referent → Prop
  | .ofClass named => scope.catalog.contains named = true ∧ named.dims = 0
  | .ofVariable parameter => parameter ∈ scope.parameters

namespace Catalog

@[simp] theorem contains_ofPrimitive (catalog : Catalog) (primitive : Primitive) :
    catalog.contains (.ofPrimitive primitive) = true := by
  have isPrimitive : (ClassName.ofPrimitive primitive).element.asPrimitive? = some primitive :=
    Primitive.ofKeyword?_keyword primitive
  simp [contains, ClassName.isPrimitive, isPrimitive]

/-- A known class without dimensions is a primitive type or declared. -/
theorem contains_plain {catalog : Catalog} {name : String}
    (contained : catalog.contains (.plain name) = true) :
    (∃ primitive, Primitive.ofKeyword? name = some primitive) ∨ catalog.declares name = true := by
  simp only [contains, Bool.or_eq_true] at contained
  rcases contained with isPrimitive | declared
  · exact Or.inl (Option.isSome_iff_exists.1 isPrimitive)
  · exact Or.inr declared

/-- A known class is declared if its name is no keyword. -/
theorem declares_of_contains {catalog : Catalog} {name : String}
    (contained : catalog.contains (.plain name) = true)
    (noKeyword : Primitive.ofKeyword? name = none) : catalog.declares name = true := by
  rcases contains_plain contained with ⟨primitive, isPrimitive⟩ | declared
  · rw [noKeyword] at isPrimitive
    cases isPrimitive
  · exact declared

theorem contains_of_declares {catalog : Catalog} {name : String}
    (declared : catalog.declares name = true) : catalog.contains (.plain name) = true := by
  have sameName : (ClassName.plain name).name = name := rfl
  simp [contains, sameName, declared]

end Catalog

namespace Scope

variable {scope : Scope} {referent : Referent}

theorem known_eq_ok_iff {name : String} :
    scope.known name = .ok referent ↔
      scope.catalog.contains (.plain name) = true ∧ referent = .ofClass (.plain name) := by
  simp only [known]
  split
  · next contained => simp only [contained, Except.ok.injEq, true_and, eq_comm]
  · next missing => simp [missing]

theorem resolveSimple_isKnownIn {name : String} (resolved : scope.resolveSimple name = .ok referent) :
    referent.IsKnownIn scope := by
  have ofKnown : ∀ name, scope.known name = .ok referent → referent.IsKnownIn scope := by
    intro name isKnown
    rcases known_eq_ok_iff.1 isKnown with ⟨contained, rfl⟩
    exact ⟨contained, rfl⟩
  simp only [resolveSimple] at resolved
  split at resolved
  · next primitive _ =>
    cases resolved
    exact ⟨scope.catalog.contains_ofPrimitive primitive, rfl⟩
  · split at resolved
    · next parameter found =>
      cases resolved
      exact List.mem_of_find?_eq_some found
    · split at resolved
      · exact ofKnown _ resolved
      · exact ofKnown _ resolved
      · cases resolved

theorem resolveDotted_isKnownIn {segments : List String}
    (resolved : scope.resolveDotted segments = .ok referent) : referent.IsKnownIn scope := by
  simp only [resolveDotted] at resolved
  split at resolved
  · next name found =>
    cases resolved
    have contained := List.find?_some found
    exact ⟨contained, rfl⟩
  · cases resolved

/-- What a name stands for is known. -/
theorem resolve_isKnownIn {segments : List String} (resolved : scope.resolve segments = .ok referent) :
    referent.IsKnownIn scope := by
  simp only [resolve] at resolved
  split at resolved
  · exact resolveSimple_isKnownIn resolved
  · exact resolveDotted_isKnownIn resolved

/-- The scope with its type variables, but without imports. -/
def withoutImports (self : Scope) : Scope := { self with imports := none }

/-- Only a simple name stands for a type variable, whatever classes are known or imported. -/
theorem resolve_eq_ofVariable {first : String} {further : List String} {parameter : TypeVariable}
    (resolved : scope.resolve (first :: further) = .ok (.ofVariable parameter)) :
    further = [] ∧ first = parameter.name ∧
      ∀ other : Scope, other.parameters = scope.parameters →
        other.resolve [parameter.name] = .ok (.ofVariable parameter) := by
  cases further with
  | cons second others =>
      simp only [resolve, resolveDotted] at resolved
      split at resolved <;> cases resolved
  | nil =>
      have notKnown : ∀ name, scope.known name ≠ .ok (.ofVariable parameter) := by
        intro name isKnown
        cases (known_eq_ok_iff.1 isKnown).2
      simp only [resolve, resolveSimple] at resolved
      split at resolved
      · cases resolved
      · next noPrimitive =>
        split at resolved
        · next found isFound =>
          cases resolved
          have sameName : parameter.name = first := by simpa using List.find?_some isFound
          subst sameName
          refine ⟨rfl, rfl, ?_⟩
          intro other sameParameters
          simp [resolve, resolveSimple, noPrimitive, sameParameters, isFound]
        · split at resolved
          · exact absurd resolved (notKnown _)
          · exact absurd resolved (notKnown _)
          · cases resolved

/--
The names that segments spell have dots between the first ones and dollar signs between the others.
-/
theorem mem_spellings_iff {segments : List String} {name : String} :
    name ∈ spellings segments ↔
      ∃ outer members, outer ≠ [] ∧ segments = outer ++ members ∧
        name = memberName outer members := by
  simp only [spellings, List.mem_map, List.mem_range]
  constructor
  · rintro ⟨nested, inside, rfl⟩
    refine ⟨_, _, ?_, (List.take_append_drop (segments.length - nested) segments).symm, rfl⟩
    apply List.ne_nil_of_length_pos
    rw [List.length_take]
    omega
  · rintro ⟨outer, members, nonempty, rfl, rfl⟩
    have some := List.length_pos_of_ne_nil nonempty
    refine ⟨members.length, ?_, ?_⟩
    · rw [List.length_append]
      omega
    · simp

theorem exists_spellings_eq (first : String) (further : List String) :
    ∃ others, spellings (first :: further) = String.intercalate "." (first :: further) :: others := by
  have isWhole : memberName ((first :: further).take (further.length + 1 - 0))
      ((first :: further).drop (further.length + 1 - 0)) =
        String.intercalate "." (first :: further) := by
    simp [memberName, String.join]
  simp only [spellings, List.length_cons, List.range_succ_eq_map, List.map_cons]
  exact ⟨_, congrArg (· :: _) isWhole⟩

/-- The binary name of a known class with dots in it stands for the class. -/
theorem resolve_of_contains {first second : String} {others : List String}
    (contained : scope.catalog.contains
      (.plain (String.intercalate "." (first :: second :: others))) = true) :
    scope.resolve (first :: second :: others) =
      .ok (.ofClass (.plain (String.intercalate "." (first :: second :: others)))) := by
  rcases exists_spellings_eq first (second :: others) with ⟨spelled, isSpelled⟩
  simp only [resolve, resolveDotted, isSpelled, List.cons_append, List.find?_cons, contained]

/-- A known name resolves to its class, if no variable takes it away. -/
theorem resolve_withoutImports {first : String} {further : List String}
    (contained : scope.catalog.contains (.plain (String.intercalate "." (first :: further))) = true)
    (free : ∀ parameter ∈ scope.parameters,
      scope.catalog.declares parameter.name = false) :
    scope.withoutImports.resolve (first :: further) =
      .ok (.ofClass (.plain (String.intercalate "." (first :: further)))) := by
  cases further with
  | nil =>
      rw [String.intercalate_singleton] at contained ⊢
      simp only [resolve, resolveSimple]
      split
      · next primitive isPrimitive =>
        rw [← Primitive.keyword_of_ofKeyword? isPrimitive]
        rfl
      · next noPrimitive =>
        have declared := Catalog.declares_of_contains contained noPrimitive
        have noVariable : scope.parameters.find? (fun parameter => parameter.name = first) = none := by
          rw [List.find?_eq_none]
          intro parameter member sameName
          have undeclared := free parameter member
          simp only [decide_eq_true_eq] at sameName
          rw [sameName, declared] at undeclared
          cases undeclared
        simp only [withoutImports, noVariable, candidates]
        exact known_eq_ok_iff.2 ⟨contained, rfl⟩
  | cons second others => exact resolve_of_contains contained

end Scope

/--
A known class is applied to as many arguments as it has type parameters, and owned by its enclosing
class unless an owner is given.
-/
theorem Catalog.parameterize_eq_ok_iff {catalog : Catalog} {owner : Option Ty} {raw : ClassName}
    {arguments : List Ty} {ty : Ty} :
    catalog.parameterize owner raw arguments = .ok ty ↔
      catalog.contains raw = true ∧ arguments ≠ [] ∧ catalog.arity raw = arguments.length ∧
        .parameterized (owner.or ((catalog.enclosing? raw).map .nominal)) raw arguments = ty := by
  simp only [Catalog.parameterize]
  split
  · next contained =>
    split
    · next mismatch =>
      simp only [reduceCtorEq, contained, true_and, false_iff]
      rintro ⟨nonempty, same, -⟩
      rcases mismatch with none | different
      · exact nonempty (List.length_eq_zero_iff.1 (same ▸ none))
      · exact different same
    · next fits =>
      rcases not_or.1 fits with ⟨some, same⟩
      have same := Classical.not_not.1 same
      have nonempty : arguments ≠ [] := by
        rintro rfl
        exact some same
      simp [contained, nonempty, same]
  · next missing => simp [missing]

end NominalTypes
