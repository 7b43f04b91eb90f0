import NominalTypes.Catalog.Basic

/-!
# Bindings of type variables

Finite maps from type variables to types, and the replacement of the variables of an expression by
what they are bound to. Array types are put into canonical form again around what is replaced. The
bounds of a variable belong to its declaration and are not looked into. Without bindings an
expression stays exactly as it is.
-/

namespace NominalTypes

/-- A finite map from type variables to types. -/
structure Bindings where
  entries : List (TypeVariable × Ty)
  distinct : (entries.map Prod.fst).Nodup

namespace Bindings

/-- The map without bindings. -/
def empty : Bindings := ⟨[], by simp⟩

/-- The number of bound variables. -/
def size (self : Bindings) : Nat := self.entries.length

/-- No variable is bound. -/
def isEmpty (self : Bindings) : Bool := self.entries.isEmpty

/-- The type that a variable is bound to. -/
def get? (self : Bindings) (parameter : TypeVariable) : Option Ty :=
  (self.entries.find? fun entry => entry.1 = parameter).map Prod.snd

/-- The map in which a variable is bound to a type, in the place of what it was bound to. -/
def insert (self : Bindings) (parameter : TypeVariable) (ty : Ty) : Bindings :=
  if bound : parameter ∈ self.entries.map Prod.fst then
    ⟨self.entries.map fun entry => if entry.1 = parameter then (entry.1, ty) else entry, by
      have kept : (Prod.fst ∘ fun entry : TypeVariable × Ty =>
          if entry.1 = parameter then (entry.1, ty) else entry) = Prod.fst := by
        funext entry
        by_cases same : entry.1 = parameter <;> simp [same]
      rw [List.map_map, kept]
      exact self.distinct⟩
  else
    ⟨self.entries ++ [(parameter, ty)], by
      rw [List.map_append, List.nodup_append]
      refine ⟨self.distinct, by simp, ?_⟩
      intro earlier member later isLast same
      cases List.mem_singleton.1 isLast
      cases same
      exact bound member⟩

/-- The map of the bindings, the last one for each variable. -/
def ofList (bindings : List (TypeVariable × Ty)) : Bindings :=
  bindings.foldl (fun map binding => map.insert binding.1 binding.2) empty

/-- The type parameters of a class bound to arguments by position. -/
def forClass (catalog : Catalog) (named : ClassName) (arguments : List Ty) : Bindings :=
  ofList ((catalog.typeParameters named).zip arguments)

/-- The two maps bind the same variables to the same types. -/
def sameBindings (left right : Bindings) : Bool :=
  left.entries.all (fun entry => right.get? entry.1 = some entry.2) &&
    right.entries.all (fun entry => left.get? entry.1 = some entry.2)

mutual

/-- The expression with its bound variables replaced and its array types in canonical form. -/
def replace (self : Bindings) : Ty → Ty
  | .nominal named => .nominal named
  | .array component => .arrayOf (self.replace component)
  | .parameterized owner raw arguments =>
      .parameterized (self.replaceOwner owner) raw (self.replaceAll arguments)
  | .var parameter => (self.get? parameter).getD (.var parameter)
  | .wildcard upper lower => .wildcard (self.replaceAll upper) (self.replaceAll lower)
termination_by structural ty => ty

/-- `Bindings.replace` for an optional expression. -/
def replaceOwner (self : Bindings) : Option Ty → Option Ty
  | none => none
  | some owner => some (self.replace owner)
termination_by structural owner => owner

/-- `Bindings.replace` for each of the expressions. -/
def replaceAll (self : Bindings) : List Ty → List Ty
  | [] => []
  | part :: parts => self.replace part :: self.replaceAll parts
termination_by structural parts => parts

end

/-- The expression with its bound variables replaced; it stays as it is without bindings. -/
def apply (self : Bindings) (ty : Ty) : Ty :=
  if self.isEmpty then ty else self.replace ty

theorem replaceAll_eq_map (self : Bindings) (parts : List Ty) :
    self.replaceAll parts = parts.map self.replace := by
  induction parts with
  | nil => rfl
  | cons part parts ih => simp [replaceAll, ih]

theorem replaceOwner_eq_map (self : Bindings) (owner : Option Ty) :
    self.replaceOwner owner = owner.map self.replace := by
  cases owner <;> rfl

theorem get?_insert_self (self : Bindings) (parameter : TypeVariable) (ty : Ty) :
    (self.insert parameter ty).get? parameter = some ty := by
  unfold insert
  split
  · next bound =>
    have found : ∀ entries : List (TypeVariable × Ty), parameter ∈ entries.map Prod.fst →
        ((entries.map fun entry => if entry.1 = parameter then (entry.1, ty) else entry).find?
          fun entry => entry.1 = parameter).map Prod.snd = some ty := by
      intro entries member
      induction entries with
      | nil => simp at member
      | cons entry rest ih =>
          by_cases same : entry.1 = parameter
          · simp [same]
          · have later : parameter ∈ rest.map Prod.fst := by
              rcases List.mem_cons.1 member with first | later
              · exact absurd first.symm same
              · exact later
            simpa [same] using ih later
    exact found self.entries bound
  · next free =>
    have absent : self.entries.find? (fun entry => entry.1 = parameter) = none := by
      rw [List.find?_eq_none]
      intro entry member same
      exact free (List.mem_map.2 ⟨entry, member, by simpa using same⟩)
    simp [get?, List.find?_append, absent]

theorem get?_insert_of_ne (self : Bindings) {parameter other : TypeVariable} (ty : Ty)
    (different : other ≠ parameter) : (self.insert parameter ty).get? other = self.get? other := by
  unfold insert
  split
  · have kept : ∀ entries : List (TypeVariable × Ty),
        ((entries.map fun entry => if entry.1 = parameter then (entry.1, ty) else entry).find?
          fun entry => entry.1 = other).map Prod.snd =
        (entries.find? fun entry => entry.1 = other).map Prod.snd := by
      intro entries
      induction entries with
      | nil => rfl
      | cons entry rest ih =>
          by_cases same : entry.1 = parameter
          · have unlike : ¬entry.1 = other := fun equal => different (equal.symm.trans same)
            simpa [same, different.symm] using ih
          · by_cases wanted : entry.1 = other
            · simp [wanted, different]
            · simpa [same, wanted] using ih
    exact kept self.entries
  · simp [get?, List.find?_append, different.symm]

end Bindings

end NominalTypes
