import NominalTypes.Proofs.Ty.Canonical
import NominalTypes.Ty.Bindings
import NominalTypes.Ty.Erasure

/-!
# Replacing variables twice

Replacing the variables of an expression and then those of the result is a single replacement, if
it is one for each variable that occurs. On canonical expressions the application of bindings is
the same as the replacement, without bindings too. In a replaced expression each variable stands for
the variables of what it is replaced by, in whatever place it occurs. A class whose parameters are
bound to replaced arguments has its parameters replaced by the arguments first.
-/

namespace NominalTypes

namespace Bindings

variable {self : Bindings}

/-- Replacing variables under an array builds the array anew. -/
theorem replace_arrayOf (component : Ty) :
    self.replace (.arrayOf component) = .arrayOf (self.replace component) := by
  cases component with
  | array | parameterized | var | wildcard => rfl
  | nominal named =>
      rcases Ty.arrayOf_nominal named with ⟨arrayClass, isClass⟩ | isArray
      · rw [isClass, replace, replace, isClass]
      · rw [isArray]
        rfl

theorem replace_parameterized (owner : Option Ty) (raw : ClassName) (arguments : List Ty) :
    self.replace (.parameterized owner raw arguments) =
      .parameterized (owner.map self.replace) raw (arguments.map self.replace) := by
  rw [replace, replaceOwner_eq_map, replaceAll_eq_map]

theorem replace_wildcard (upper lower : List Ty) :
    self.replace (.wildcard upper lower) =
      .wildcard (upper.map self.replace) (lower.map self.replace) := by
  rw [replace, replaceAll_eq_map, replaceAll_eq_map]

/-- Two replacements are one, if they are for every variable of the expression. -/
theorem replace_replace {inner outer joint : Bindings} {ty : Ty}
    (agree : ∀ parameter ∈ ty.occurrences,
      outer.replace (inner.replace (.var parameter)) = joint.replace (.var parameter)) :
    outer.replace (inner.replace ty) = joint.replace ty := by
  induction ty using Ty.induct with
  | nominal named => rfl
  | var parameter ih => exact agree parameter (List.mem_singleton.2 rfl)
  | array component ih =>
      simp only [replace, replace_arrayOf, ih agree]
  | parameterized owner raw arguments ownerIh argumentsIh =>
      rcases Ty.forall_occurrences_parameterized.1 agree with ⟨ownerAgrees, argumentsAgree⟩
      simp only [replace_parameterized, Option.map_map, List.map_map, Ty.parameterized.injEq,
        true_and]
      constructor
      · apply Option.map_congr
        intro part isOwner
        exact ownerIh part isOwner (ownerAgrees part isOwner)
      · apply List.map_congr_left
        intro part isArgument
        exact argumentsIh part isArgument (argumentsAgree part isArgument)
  | wildcard upper lower upperIh lowerIh =>
      rcases Ty.forall_occurrences_wildcard.1 agree with ⟨upperAgree, lowerAgree⟩
      simp only [replace_wildcard, List.map_map, Ty.wildcard.injEq]
      constructor
      · apply List.map_congr_left
        intro part isBound
        exact upperIh part isBound (upperAgree part isBound)
      · apply List.map_congr_left
        intro part isBound
        exact lowerIh part isBound (lowerAgree part isBound)

/-- A canonical type stays the same if none of its variables is bound. -/
theorem replace_eq_self {ty : Ty} (canonical : ty.IsCanonical)
    (unbound : ∀ parameter ∈ ty.occurrences, self.get? parameter = none) :
    self.replace ty = ty := by
  induction ty using Ty.induct with
  | nominal named => rfl
  | var parameter ih => simp [replace, unbound parameter (List.mem_singleton.2 rfl)]
  | array component ih =>
      rcases Ty.isCanonical_array.1 canonical with ⟨form, canonical⟩
      rw [replace, ih canonical unbound, Ty.arrayOf_eq_array form]
  | parameterized owner raw arguments ownerIh argumentsIh =>
      rcases Ty.isCanonical_parameterized.1 canonical with ⟨ownerCanonical, argumentsCanonical⟩
      rcases Ty.forall_occurrences_parameterized.1 unbound with ⟨ownerUnbound, argumentsUnbound⟩
      have sameOwner : owner.map self.replace = owner.map id := by
        apply Option.map_congr
        intro part isOwner
        exact ownerIh part isOwner (ownerCanonical part isOwner) (ownerUnbound part isOwner)
      have sameArguments : arguments.map self.replace = arguments.map id := by
        apply List.map_congr_left
        intro part isArgument
        exact argumentsIh part isArgument (argumentsCanonical part isArgument)
          (argumentsUnbound part isArgument)
      rw [replace_parameterized, sameOwner, sameArguments, Option.map_id_apply, List.map_id]
  | wildcard upper lower upperIh lowerIh =>
      rcases Ty.isCanonical_wildcard.1 canonical with ⟨upperCanonical, lowerCanonical⟩
      rcases Ty.forall_occurrences_wildcard.1 unbound with ⟨upperUnbound, lowerUnbound⟩
      have sameUpper : upper.map self.replace = upper.map id := by
        apply List.map_congr_left
        intro part isBound
        exact upperIh part isBound (upperCanonical part isBound) (upperUnbound part isBound)
      have sameLower : lower.map self.replace = lower.map id := by
        apply List.map_congr_left
        intro part isBound
        exact lowerIh part isBound (lowerCanonical part isBound) (lowerUnbound part isBound)
      rw [replace_wildcard, sameUpper, sameLower, List.map_id, List.map_id]

theorem get?_eq_none_of_isEmpty (isEmpty : self.isEmpty = true) (parameter : TypeVariable) :
    self.get? parameter = none := by
  have noEntries : self.entries = [] := List.isEmpty_iff.1 isEmpty
  simp [get?, noEntries]

theorem apply_of_isEmpty (isEmpty : self.isEmpty = true) : self.apply = id := by
  funext ty
  rw [apply, if_pos isEmpty]
  rfl

theorem apply_of_nonempty (nonempty : self.isEmpty = false) : self.apply = self.replace := by
  funext ty
  rw [apply, nonempty, if_neg Bool.false_ne_true]

/-- On canonical types applying bindings is replacing variables, without bindings too. -/
theorem apply_eq_replace {ty : Ty} (canonical : ty.IsCanonical) :
    self.apply ty = self.replace ty := by
  simp only [apply]
  split
  · next isEmpty =>
    symm
    apply replace_eq_self canonical
    intro parameter _
    exact get?_eq_none_of_isEmpty isEmpty parameter
  · rfl

theorem apply_nominal (named : ClassName) : self.apply (.nominal named) = .nominal named := by
  simp only [apply]
  split <;> rfl

theorem apply_parameterized (owner : Option Ty) (raw : ClassName) (arguments : List Ty) :
    self.apply (.parameterized owner raw arguments) =
      .parameterized (owner.map self.apply) raw (arguments.map self.apply) := by
  unfold apply
  split
  · simp
  · exact replace_parameterized owner raw arguments

/-- The variables that stand in the place of a variable: itself, or those of what it is bound to. -/
def occurrencesAt (self : Bindings) (original : TypeVariable) : List TypeVariable :=
  match self.get? original with
  | some replacement => replacement.occurrences
  | none => [original]

/-- A variable without binding stays, and a bound one leaves the variables of its type. -/
theorem mem_occurrencesAt {original parameter : TypeVariable} :
    parameter ∈ self.occurrencesAt original ↔
      (self.get? original = none ∧ parameter = original) ∨
        ∃ replacement, self.get? original = some replacement ∧
          parameter ∈ replacement.occurrences := by
  unfold occurrencesAt
  cases self.get? original with
  | none => simp
  | some replacement => simp

theorem occurrences_replace_var (original : TypeVariable) :
    (self.replace (.var original)).occurrences = self.occurrencesAt original := by
  rw [replace, occurrencesAt]
  cases self.get? original <;> rfl

mutual

/-- A replaced expression has variables in the places of the variables of the expression only. -/
theorem occurrences_replace :
    ∀ ty : Ty, (self.replace ty).occurrences = ty.occurrences.flatMap self.occurrencesAt
  | .nominal _ => rfl
  | .array component => by
      rw [replace, Ty.occurrences_arrayOf, occurrences_replace component, Ty.occurrences]
  | .parameterized owner _ arguments => by
      rw [replace, Ty.occurrences, Ty.occurrences, List.flatMap_append,
        occurrences_replaceOwner owner, occurrences_replaceAll arguments]
  | .var original => by
      rw [occurrences_replace_var, Ty.occurrences, List.flatMap_singleton]
  | .wildcard upper lower => by
      rw [replace, Ty.occurrences, Ty.occurrences, List.flatMap_append,
        occurrences_replaceAll upper, occurrences_replaceAll lower]
termination_by structural ty => ty

theorem occurrences_replaceOwner :
    ∀ owner : Option Ty, Ty.occurrencesOwner (self.replaceOwner owner) =
      (Ty.occurrencesOwner owner).flatMap self.occurrencesAt
  | none => rfl
  | some owner => occurrences_replace owner
termination_by structural owner => owner

theorem occurrences_replaceAll :
    ∀ parts : List Ty, Ty.occurrencesAll (self.replaceAll parts) =
      (Ty.occurrencesAll parts).flatMap self.occurrencesAt
  | [] => rfl
  | part :: parts => by
      rw [replaceAll, Ty.occurrencesAll, Ty.occurrencesAll, List.flatMap_append,
        occurrences_replace part, occurrences_replaceAll parts]
termination_by structural parts => parts

end

/-- The variables after an application are those that each variable leaves, in order. -/
theorem occurrences_apply (ty : Ty) :
    (self.apply ty).occurrences = ty.occurrences.flatMap self.occurrencesAt := by
  unfold apply
  split
  · next isEmpty =>
    have unchanged : self.occurrencesAt = fun original => [original] := by
      funext original
      rw [occurrencesAt, get?_eq_none_of_isEmpty isEmpty]
    rw [unchanged, List.flatMap_singleton']
  · exact occurrences_replace ty

/-- The last binding of a variable counts, and before the earlier ones of the map. -/
theorem get?_foldl_insert (bindings : List (TypeVariable × Ty)) (parameter : TypeVariable) :
    (bindings.foldl (fun map binding => map.insert binding.1 binding.2) self).get? parameter =
      ((bindings.reverse.find? fun binding => binding.1 = parameter).map Prod.snd).or
        (self.get? parameter) := by
  induction bindings generalizing self with
  | nil => rfl
  | cons binding rest ih =>
      rw [List.foldl_cons, ih, List.reverse_cons, List.find?_append]
      cases rest.reverse.find? fun binding => binding.1 = parameter with
      | some found => rfl
      | none =>
          by_cases same : binding.1 = parameter
          · simp [same, get?_insert_self]
          · simp [same, get?_insert_of_ne _ _ (Ne.symm same)]

/-- Of several bindings of a variable the last one counts. -/
theorem get?_ofList (bindings : List (TypeVariable × Ty)) (parameter : TypeVariable) :
    (ofList bindings).get? parameter =
      (bindings.reverse.find? fun binding => binding.1 = parameter).map Prod.snd := by
  rw [ofList, get?_foldl_insert]
  exact Option.or_none

theorem mem_of_get?_ofList {bindings : List (TypeVariable × Ty)} {parameter : TypeVariable}
    {ty : Ty} (bound : (ofList bindings).get? parameter = some ty) : (parameter, ty) ∈ bindings := by
  rw [get?_ofList] at bound
  rcases Option.map_eq_some_iff.1 bound with ⟨binding, found, rfl⟩
  have isBound : binding.1 = parameter := by simpa using List.find?_some found
  subst isBound
  exact List.mem_reverse.1 (List.mem_of_find?_eq_some found)

theorem get?_ofList_isSome {bindings : List (TypeVariable × Ty)} {parameter : TypeVariable}
    (member : parameter ∈ bindings.map Prod.fst) : ((ofList bindings).get? parameter).isSome := by
  rcases List.mem_map.1 member with ⟨binding, isBinding, rfl⟩
  simp only [get?_ofList, Option.isSome_map, List.find?_isSome, List.mem_reverse,
    decide_eq_true_eq]
  exact ⟨binding, isBinding, rfl⟩

/-- All parameters can be bound to the same type. -/
theorem get?_ofList_const {parameters : List TypeVariable} {parameter : TypeVariable}
    (member : parameter ∈ parameters) (ty : Ty) :
    (ofList (parameters.map fun parameter => (parameter, ty))).get? parameter = some ty := by
  have isBound : ((ofList (parameters.map fun parameter => (parameter, ty))).get?
      parameter).isSome = true := by
    apply get?_ofList_isSome
    simpa using member
  rcases Option.isSome_iff_exists.1 isBound with ⟨other, bound⟩
  rcases List.mem_map.1 (mem_of_get?_ofList bound) with ⟨_, -, isPair⟩
  cases isPair
  exact bound

theorem get?_ofList_map (bindings : List (TypeVariable × Ty)) (transform : Ty → Ty)
    (parameter : TypeVariable) :
    (ofList (bindings.map fun binding => (binding.1, transform binding.2))).get? parameter =
      ((ofList bindings).get? parameter).map transform := by
  simp only [get?_ofList, ← List.map_reverse, List.find?_map, Option.map_map]
  rfl

variable {catalog : Catalog} {raw : ClassName} {arguments : List Ty}

/-- An applied class binds all its type parameters. -/
theorem get?_forClass_isSome (arity : catalog.arity raw = arguments.length)
    {parameter : TypeVariable} (member : parameter ∈ catalog.typeParameters raw) :
    ((forClass catalog raw arguments).get? parameter).isSome := by
  apply get?_ofList_isSome
  rw [List.map_fst_zip (Nat.le_of_eq arity)]
  exact member

theorem mem_arguments_of_get?_forClass {parameter : TypeVariable} {ty : Ty}
    (bound : (forClass catalog raw arguments).get? parameter = some ty) : ty ∈ arguments :=
  (List.of_mem_zip (mem_of_get?_ofList bound)).2

/-- A parameter that is bound to a replaced argument is replaced by the argument first. -/
theorem replace_forClass (arity : catalog.arity raw = arguments.length)
    {parameter : TypeVariable} (member : parameter ∈ catalog.typeParameters raw) :
    (forClass catalog raw (arguments.map self.replace)).replace (.var parameter) =
      self.replace ((forClass catalog raw arguments).replace (.var parameter)) := by
  rcases Option.isSome_iff_exists.1 (get?_forClass_isSome arity member) with ⟨argument, isArgument⟩
  have isReplaced : (forClass catalog raw (arguments.map self.replace)).get? parameter =
      some (self.replace argument) := by
    rw [forClass, List.zip_map_right]
    exact (get?_ofList_map _ self.replace parameter).trans (congrArg _ isArgument)
  simp [replace, isArgument, isReplaced]

end Bindings

end NominalTypes
