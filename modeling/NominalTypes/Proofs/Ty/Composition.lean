import NominalTypes.Proofs.Ty.Substitution

/-!
# Composition of bindings

Two bindings that are applied one after the other are a single one: it binds the variables of the
first ones to what the second ones make of their types, and the other variables as the second ones
do. This holds for all expressions, whether their arrays are in canonical form or not. Bindings
without a variable are neutral on both sides, though they leave arrays as they are where others put
them into canonical form.
-/

namespace NominalTypes

namespace Bindings

variable {self : Bindings}

theorem find?_of_mem {entries : List (TypeVariable × Ty)}
    (distinct : (entries.map Prod.fst).Nodup) {entry : TypeVariable × Ty}
    (member : entry ∈ entries) :
    entries.find? (fun other => other.1 = entry.1) = some entry := by
  induction entries with
  | nil => cases member
  | cons first rest ih =>
      rw [List.map_cons, List.nodup_cons] at distinct
      rcases List.mem_cons.1 member with rfl | later
      · simp
      · have different : first.1 ≠ entry.1 := by
          intro same
          exact distinct.1 (same ▸ List.mem_map_of_mem later)
        simpa [different] using ih distinct.2 later

/-- A variable is bound to the type that it has an entry with. -/
theorem get?_eq_some_iff {parameter : TypeVariable} {ty : Ty} :
    self.get? parameter = some ty ↔ (parameter, ty) ∈ self.entries := by
  constructor
  · intro bound
    rcases Option.map_eq_some_iff.1 bound with ⟨entry, found, rfl⟩
    have isBound : entry.1 = parameter := by simpa using List.find?_some found
    subst isBound
    exact List.mem_of_find?_eq_some found
  · intro member
    rw [get?, find?_of_mem self.distinct member]
    rfl

/-- A variable is bound once, so the order of the entries does not matter. -/
theorem find?_reverse_entries (self : Bindings) (parameter : TypeVariable) :
    (self.entries.reverse.find? fun entry => entry.1 = parameter).map Prod.snd =
      self.get? parameter := by
  have distinct : (self.entries.reverse.map Prod.fst).Nodup :=
    ((List.reverse_perm self.entries).map Prod.fst).nodup_iff.2 self.distinct
  have backwards : (Bindings.mk self.entries.reverse distinct).get? parameter =
      self.get? parameter := by
    apply Option.ext
    intro ty
    rw [get?_eq_some_iff, get?_eq_some_iff, List.mem_reverse]
  exact backwards

theorem isEmpty_iff_get? : self.isEmpty = true ↔ ∀ parameter, self.get? parameter = none := by
  constructor
  · exact get?_eq_none_of_isEmpty
  · intro unbound
    rw [isEmpty, List.isEmpty_iff, List.eq_nil_iff_forall_not_mem]
    intro entry member
    have bound := get?_eq_some_iff.2 member
    rw [unbound] at bound
    cases bound

/-- Maps that replace the variables of an expression alike replace the expression alike. -/
theorem replace_congr {left right : Bindings} {ty : Ty}
    (agree : ∀ parameter ∈ ty.occurrences,
      left.replace (.var parameter) = right.replace (.var parameter)) :
    left.replace ty = right.replace ty := by
  have twice : left.replace (empty.replace ty) = left.replace ty :=
    replace_replace fun _ _ => rfl
  rw [← twice]
  exact replace_replace agree

/-- Bindings with the same lookups replace in the same way. -/
theorem apply_congr {left right : Bindings}
    (agree : ∀ parameter, left.get? parameter = right.get? parameter) (ty : Ty) :
    left.apply ty = right.apply ty := by
  have bothEmpty : left.isEmpty = right.isEmpty := by
    rw [Bool.eq_iff_iff, isEmpty_iff_get?, isEmpty_iff_get?]
    simp only [agree]
  have sameReplacement : left.replace ty = right.replace ty := by
    apply replace_congr
    intro parameter _
    rw [replace, replace, agree]
  rw [apply, apply, bothEmpty, sameReplacement]

/-- The map that binds variables as the first one does and then the second one. -/
def andThen (self next : Bindings) : Bindings :=
  (self.entries.map fun entry => (entry.1, next.apply entry.2)).foldl
    (fun map binding => map.insert binding.1 binding.2) next

/--
A composed map looks a variable up in the first one, with the next one applied, and else in the
next.
-/
theorem get?_andThen (self next : Bindings) (parameter : TypeVariable) :
    (self.andThen next).get? parameter =
      ((self.get? parameter).map next.apply).or (next.get? parameter) := by
  rw [andThen, get?_foldl_insert, ← find?_reverse_entries self, ← List.map_reverse,
    List.find?_map, Option.map_map, Option.map_map]
  rfl

/--
Two applications are one, if the variables are bound to the types of the first ones, applied. Maps
without bindings are cases of their own, since they leave arrays in their form.
-/
theorem apply_apply {inner outer joint : Bindings}
    (joins : ∀ parameter, joint.get? parameter =
      ((inner.get? parameter).map outer.apply).or (outer.get? parameter)) (ty : Ty) :
    outer.apply (inner.apply ty) = joint.apply ty := by
  cases outerEmpty : outer.isEmpty with
  | true =>
      rw [apply_of_isEmpty outerEmpty] at joins ⊢
      apply apply_congr
      intro parameter
      rw [joins, get?_eq_none_of_isEmpty outerEmpty, Option.map_id, Option.or_none]
      rfl
  | false =>
      cases innerEmpty : inner.isEmpty with
      | true =>
          rw [apply_of_isEmpty innerEmpty]
          apply apply_congr
          intro parameter
          rw [joins, get?_eq_none_of_isEmpty innerEmpty, Option.map_none, Option.none_or]
      | false =>
          have jointFull : joint.isEmpty = false := by
            rw [← Bool.not_eq_true, isEmpty_iff_get?] at outerEmpty ⊢
            intro unbound
            apply outerEmpty
            intro parameter
            have nowhere := unbound parameter
            rw [joins, Option.or_eq_none_iff] at nowhere
            exact nowhere.2
          rw [apply_of_nonempty outerEmpty] at joins ⊢
          rw [apply_of_nonempty innerEmpty, apply_of_nonempty jointFull]
          apply replace_replace
          intro parameter _
          rw [replace, replace, joins]
          cases inner.get? parameter with
          | none => rfl
          | some ty => rfl

/--
Bindings that are applied after others do what a single map does: it binds the variables of the
first ones to their types with the second ones applied, and the others as the second ones do.
-/
theorem apply_andThen (first second : Bindings) :
    (∀ parameter, (first.andThen second).get? parameter =
      ((first.get? parameter).map second.apply).or (second.get? parameter)) ∧
    ∀ ty, second.apply (first.apply ty) = (first.andThen second).apply ty :=
  ⟨get?_andThen first second, apply_apply (get?_andThen first second)⟩

end Bindings

end NominalTypes
