import NominalTypes.Proofs.Catalog.Linking

/-!
# Declared classes

What holds of each class that is declared in a loaded catalog, however its document and the ones
around it look. An interface has no superclass, and every other class has one, apart from
`java.lang.Object`. Superclasses are classes and superinterfaces are interfaces, none is an array.
Supertypes and bounds name known classes, each with the number of arguments that it takes, and no
other type variables than the parameters of their class; a bound has only the parameters before its
own. Reading a declaration against the skeletons of its document gives such a class, and a class
stays such a one when classes are added or skeletons are filled in.
-/

namespace NominalTypes

namespace Catalog

/-- The expression has known classes with fitting arguments, and no variables but the given ones. -/
structure IsBuiltOver (catalog : Catalog) (parameters : List TypeVariable) (ty : Ty) : Prop where
  known : ∀ named ∈ ty.classes, named = .object ∨ catalog.contains named = true
  applied : ∀ part ∈ ty.parts, catalog.FitsArity part
  closed : ∀ parameter ∈ ty.occurrences, parameter ∈ parameters

/-- The type is no array type, and its raw class is declared with the kind. -/
def NamesKind (self : Catalog) (kind : ClassKind) (ty : Ty) : Prop :=
  ty.isArray = false ∧
    ∃ raw info, ty.rawClass = .ok raw ∧ self.get? raw = some info ∧ info.kind = kind

/-- The bounds of each type parameter are built over the parameters before it. -/
def BoundsInOrder (self : Catalog) (parameters : List TypeVariable) : Prop :=
  ∀ position parameter, parameters[position]? = some parameter →
    ∀ bound ∈ parameter.bounds, self.IsBuiltOver (parameters.take position) bound

/-- A class is declared like this when its supertypes and bounds fit what the catalog declares. -/
structure IsWellDeclared (catalog : Catalog) (info : ClassInfo) : Prop where
  interfaceAlone : info.kind = .interface → info.superclass = none
  classBelow : info.kind = .concrete → info.name ≠ ClassName.object.name →
    info.superclass.isSome = true
  superclassKind : ∀ supertype ∈ info.superclass,
    supertype = .object ∨ catalog.NamesKind .concrete supertype
  interfaceKind : ∀ supertype ∈ info.interfaces, catalog.NamesKind .interface supertype
  supertypes : ∀ supertype ∈ info.superclass.toList ++ info.interfaces,
    catalog.IsBuiltOver info.typeParameters supertype
  bounds : catalog.BoundsInOrder info.typeParameters

section

variable {self other : Catalog} (keeps : self.IsKeptBy other)

include keeps

theorem IsBuiltOver.kept {parameters : List TypeVariable} {ty : Ty}
    (built : self.IsBuiltOver parameters ty) : other.IsBuiltOver parameters ty where
  known := fun named isClass => (built.known named isClass).imp_right keeps.contains
  applied := fun part isPart => (built.applied part isPart).kept fun _ => keeps.arity
  closed := built.closed

theorem NamesKind.kept {kind : ClassKind} {ty : Ty} (names : self.NamesKind kind ty) :
    other.NamesKind kind ty := by
  rcases names with ⟨plain, raw, info, isRaw, found, isKind⟩
  rcases keeps raw info found with ⟨later, isLater, sameKind, -⟩
  exact ⟨plain, raw, later, isRaw, isLater, sameKind.trans isKind⟩

/-- A class stays well declared when classes are added or filled in. -/
theorem IsWellDeclared.kept {info : ClassInfo} (declared : self.IsWellDeclared info) :
    other.IsWellDeclared info where
  interfaceAlone := declared.interfaceAlone
  classBelow := declared.classBelow
  superclassKind := fun supertype isSuperclass =>
    (declared.superclassKind supertype isSuperclass).imp_right (NamesKind.kept keeps)
  interfaceKind := fun supertype isInterface =>
    (declared.interfaceKind supertype isInterface).kept keeps
  supertypes := fun supertype isSupertype => (declared.supertypes supertype isSupertype).kept keeps
  bounds := fun position parameter isParameter bound isBound =>
    (declared.bounds position parameter isParameter bound isBound).kept keeps

end

variable {self : Catalog} {parameters : List TypeVariable}

theorem isBuiltOver_object : self.IsBuiltOver parameters .object where
  known := List.forall_mem_singleton.2 (Or.inl rfl)
  applied := List.forall_mem_singleton.2 trivial
  closed := List.forall_mem_nil _

theorem isBuiltOver_of_parse {text : String} {ty : Ty}
    (read : (self.declarationScope parameters).parse defaultDepth text = .ok ty) :
    self.IsBuiltOver parameters ty := by
  have denotable := Scope.isDenotable_of_parse read
  exact ⟨denotable.knowsClasses.inner, denotable.fitsArity, denotable.mem_parameters⟩

theorem isBuiltOver_boundsOrObject {bounds : List Ty}
    (built : ∀ bound ∈ bounds, self.IsBuiltOver parameters bound) :
    ∀ bound ∈ Ty.boundsOrObject bounds, self.IsBuiltOver parameters bound := by
  cases bounds with
  | nil => exact List.forall_mem_singleton.2 isBuiltOver_object
  | cons first rest => exact built

theorem bounds_of_boundVariable {site : DeclarationSite} {name : String} {bounds : List Ty}
    {parameter : TypeVariable} (bounded : self.boundVariable site name bounds = .ok parameter) :
    parameter.bounds = Ty.boundsOrObject bounds := by
  simp only [boundVariable] at bounded
  split at bounded
  · cases bounded
  · rcases bind_eq_ok.1 bounded with ⟨_, -, isParameter⟩
    cases isParameter
    rfl

/-- A further parameter may have the parameters before it in its bounds. -/
theorem BoundsInOrder.concat (ordered : self.BoundsInOrder parameters) {last : TypeVariable}
    (built : ∀ bound ∈ last.bounds, self.IsBuiltOver parameters bound) :
    self.BoundsInOrder (parameters ++ [last]) := by
  intro position parameter isParameter
  rcases Nat.lt_or_ge position parameters.length with earlier | later
  · rw [List.getElem?_append_left earlier] at isParameter
    rw [List.take_append_of_le_length (Nat.le_of_lt earlier)]
    exact ordered position parameter isParameter
  · have isLast : position = parameters.length := by
      have inside := (List.getElem?_eq_some_iff.1 isParameter).1
      rw [List.length_append, List.length_singleton] at inside
      omega
    subst isLast
    rw [List.getElem?_concat_length, Option.some.injEq] at isParameter
    rw [List.take_left, ← isParameter]
    exact built

/-- Each parameter that is read has the parameters before it in scope. -/
theorem boundsInOrder_of_boundParameters {site : DeclarationSite} {earlier : List TypeVariable}
    {declarations : List ParameterDeclaration} (ordered : self.BoundsInOrder earlier)
    (bounded : self.boundParameters site earlier declarations = .ok parameters) :
    self.BoundsInOrder parameters := by
  induction declarations generalizing earlier with
  | nil =>
      cases bounded
      exact ordered
  | cons declaration rest ih =>
      rcases bind_eq_ok.1 bounded with ⟨bounds, areBounds, bounded⟩
      rcases bind_eq_ok.1 bounded with ⟨parameter, isParameter, bounded⟩
      refine ih (ordered.concat ?_) bounded
      rw [bounds_of_boundVariable isParameter]
      apply isBuiltOver_boundsOrObject
      have each : ∀ text bound, (self.declarationScope earlier).parse defaultDepth text = .ok bound →
          self.IsBuiltOver earlier bound :=
        fun _ _ => isBuiltOver_of_parse
      exact forall_of_forall₂ each (mapM_eq_ok.1 areBounds)

/--
The type parameters of a declaration are bounded in order. One without bounds is a skeleton's,
bounded by `java.lang.Object` alone.
-/
theorem boundsInOrder_of_typeParametersOf {declaration : ClassDeclaration}
    (bounded : self.typeParametersOf declaration = .ok parameters) :
    self.BoundsInOrder parameters := by
  simp only [typeParametersOf] at bounded
  split at bounded
  · refine boundsInOrder_of_boundParameters ?_ bounded
    intro position parameter isParameter
    cases isParameter
  · cases bounded
    intro position parameter isParameter
    rcases List.mem_map.1 (List.mem_of_getElem? isParameter) with ⟨unbounded, -, rfl⟩
    exact List.forall_mem_singleton.2 isBuiltOver_object

theorem rawClass_of_supertypeClass? {ty : Ty} {raw : ClassName}
    (isClass : supertypeClass? ty = some raw) : ty.isArray = false ∧ ty.rawClass = .ok raw := by
  cases ty with
  | array | var | wildcard => cases isClass
  | parameterized owner other arguments =>
      cases isClass
      exact ⟨rfl, rfl⟩
  | nominal other =>
      simp only [supertypeClass?, Option.ite_none_left_eq_some, Option.some.injEq,
        Bool.or_eq_true, not_or, Bool.not_eq_true] at isClass
      rcases isClass with ⟨⟨plain, -⟩, rfl⟩
      exact ⟨plain, rfl⟩

/-- A supertype that passes the check names a class of the kind that is asked for. -/
theorem namesKind_of_checkSupertype {kind : ClassKind} {ty : Ty}
    (accepted : self.checkSupertype kind ty = .ok ()) : self.NamesKind kind ty := by
  simp only [checkSupertype] at accepted
  split at accepted
  · cases accepted
  · next raw isClass =>
    rcases rawClass_of_supertypeClass? isClass with ⟨plain, isRaw⟩
    split at accepted
    · next found =>
      rcases Option.map_eq_some_iff.1 found with ⟨info, isInfo, isKind⟩
      exact ⟨plain, raw, info, isRaw, isInfo, isKind⟩
    · cases accepted

/--
A supertype that is read names a class of the kind that is asked for, and is built over the
parameters.
-/
theorem readSupertype_eq_ok {kind : ClassKind} {text : String} {ty : Ty}
    (read : self.readSupertype parameters kind text = .ok ty) :
    self.NamesKind kind ty ∧ self.IsBuiltOver parameters ty := by
  rcases readSupertype_eq_ok_iff.1 read with ⟨isParsed, accepted⟩
  exact ⟨namesKind_of_checkSupertype accepted, isBuiltOver_of_parse isParsed⟩

/-- The superclass that a class gets, whether it is declared or left out. -/
theorem superclassOf_eq_ok {declaration : ClassDeclaration} {superclass : Option Ty}
    (isSuperclass : self.superclassOf parameters declaration = .ok superclass) :
    (declaration.kind = .interface → superclass = none) ∧
      (declaration.kind = .concrete → declaration.name ≠ ClassName.object.name →
        superclass.isSome = true) ∧
      ∀ ty ∈ superclass, (ty = .object ∨ self.NamesKind .concrete ty) ∧
        self.IsBuiltOver parameters ty := by
  simp only [superclassOf] at isSuperclass
  split at isSuperclass
  · cases isSuperclass
  · next isInterface _ =>
    cases isSuperclass
    simp [isInterface]
  · next text isConcrete _ =>
    rcases map_eq_ok.1 isSuperclass with ⟨ty, read, rfl⟩
    rcases readSupertype_eq_ok read with ⟨names, built⟩
    simp [isConcrete, names, built]
  · next isConcrete _ =>
    cases isSuperclass
    by_cases isObject : declaration.name = ClassName.object.name
    · simp [isConcrete, isObject]
    · simp [isConcrete, isObject, isBuiltOver_object]

/-- A class that is read from its declaration fits the skeletons that it was read against. -/
theorem Links.isWellDeclared {declaration : ClassDeclaration} {info : ClassInfo}
    (links : self.Links declaration info) : self.IsWellDeclared info := by
  rcases links with ⟨parameters, bounded, linked⟩
  rcases link_eq_ok.1 linked with ⟨superclass, interfaces, isSuperclass, areInterfaces, rfl⟩
  rcases superclassOf_eq_ok isSuperclass with ⟨interfaceAlone, classBelow, superclassBuilt⟩
  have each : ∀ text ty, self.readSupertype parameters .interface text = .ok ty →
      self.NamesKind .interface ty ∧ self.IsBuiltOver parameters ty :=
    fun _ _ => readSupertype_eq_ok
  have interfacesBuilt := forall_of_forall₂ each areInterfaces
  refine ⟨interfaceAlone, classBelow, fun ty isSuper => (superclassBuilt ty isSuper).1,
    fun ty isInterface => (interfacesBuilt ty isInterface).1, ?_,
    boundsInOrder_of_typeParametersOf bounded⟩
  intro supertype isSupertype
  rcases List.mem_append.1 isSupertype with isSuper | isInterface
  · exact (superclassBuilt supertype (Option.mem_toList.1 isSuper)).2
  · exact (interfacesBuilt supertype isInterface).2

/-- Each class of a loaded catalog is well declared. -/
theorem IsLoaded.isWellDeclared (loaded : self.IsLoaded) :
    ∀ info ∈ self.classes, self.IsWellDeclared info := by
  refine loaded.forall_classes (fun _ _ _ => Links.isWellDeclared) ?_
  intro earlier later info keeps declared
  exact declared.kept keeps

/-- Whatever texts are offered, each class that is declared afterwards is well declared. -/
theorem isWellDeclared_afterTexts (texts : List String) {info : ClassInfo}
    (isDeclared : info ∈ (afterTexts texts).classes) : (afterTexts texts).IsWellDeclared info :=
  (isLoaded_afterTexts texts).isWellDeclared info isDeclared

/-- Two documents with a text between them that is none, and one that declares a class again. -/
def sortedTexts : List String := [
  "[[[\"java.lang.Object\"], [\"a.Order\", \"interface\", [\"T\"]]]]",
  "no document",
  "[[[\"a.Sorted\", \"class\", [\"K\", \x7b\"name\": \"V\", \"bounds\": [\"Order<? super K>\"]\x7d]," ++
    " null, [\"Order<V[]>\"]]]]",
  "[[[\"a.Sorted\"]]]"]

/-- The first type parameter of the class `a.Sorted`. -/
def sortedKey : TypeVariable := .unbounded (.type (.plain "a.Sorted")) "K"

/-- The second one, which is bounded by what is ordered on the first. -/
def sortedValue : TypeVariable where
  site := .type (.plain "a.Sorted")
  name := "V"
  bounds := [.parameterized none (.plain "a.Order") [.superOf (.var sortedKey)]]

theorem isWellDeclared_sorted :
    (afterTexts sortedTexts).names = ["java.lang.Object", "a.Order", "a.Sorted"] ∧
      ∃ info ∈ (afterTexts sortedTexts).classes, info.name = "a.Sorted" ∧
        info.typeParameters = [sortedKey, sortedValue] ∧ info.superclass = some .object ∧
        info.interfaces =
          [.parameterized none (.plain "a.Order") [.array (.var sortedValue)]] ∧
        (afterTexts sortedTexts).IsWellDeclared info := by
  have isSorted : ∃ info ∈ (afterTexts sortedTexts).classes, info.name = "a.Sorted" ∧
      info.typeParameters = [sortedKey, sortedValue] ∧ info.superclass = some .object ∧
      info.interfaces = [.parameterized none (.plain "a.Order") [.array (.var sortedValue)]] := by
    decide +kernel
  rcases isSorted with ⟨info, isDeclared, isName, areParameters, isSuperclass, areInterfaces⟩
  refine ⟨by decide +kernel, info, isDeclared, isName, areParameters, isSuperclass, areInterfaces, ?_⟩
  exact isWellDeclared_afterTexts sortedTexts isDeclared

end Catalog

end NominalTypes
