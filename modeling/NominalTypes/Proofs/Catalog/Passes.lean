import NominalTypes.Catalog.Passes
import NominalTypes.Proofs.Catalog.Order

/-!
# No declaration is read from half-filled classes

Adding a document class by class gives the same catalog, or fails for the same cause, as reading all its
declarations against the skeletons. A pass fills in bounds or supertypes, which no declaration that is
read later gets to see, and never changes the outline of the catalog.
-/

namespace NominalTypes

/-- Both steps succeed, with related results, or both fail for the same cause. -/
inductive SucceedAlike {error left right : Type} (related : left → right → Prop) :
    Except error left → Except error right → Prop where
  | ok {first : left} {second : right} (results : related first second) :
      SucceedAlike related (.ok first) (.ok second)
  | error (cause : error) : SucceedAlike related (.error cause) (.error cause)

/-- Steps that succeed alike can be gone on with by steps that succeed alike on related results. -/
theorem SucceedAlike.bind {error left right nextLeft nextRight : Type}
    {related : left → right → Prop} {nextRelated : nextLeft → nextRight → Prop}
    {first : Except error left} {second : Except error right}
    {next : left → Except error nextLeft} {otherNext : right → Except error nextRight}
    (alike : SucceedAlike related first second)
    (nexts : ∀ value other, related value other →
      SucceedAlike nextRelated (next value) (otherNext other)) :
    SucceedAlike nextRelated (first >>= next) (second >>= otherNext) := by
  cases alike with
  | ok results => exact nexts _ _ results
  | error cause => exact .error cause

theorem SucceedAlike.eq {error result : Type} {first second : Except error result}
    (alike : SucceedAlike Eq first second) : first = second := by
  cases alike with
  | ok same => rw [same]
  | error cause => rfl

/-- A state that is changed item by item, against results that are found for each item alone. -/
theorem SucceedAlike.foldlM_mapM {error item state result : Type}
    {step : state → item → Except error state} {find : item → Except error result}
    {holds : List result → List item → state → Prop}
    (each : ∀ done first rest current, holds done (first :: rest) current →
      SucceedAlike (fun next value => holds (done ++ [value]) rest next)
        (step current first) (find first))
    {done : List result} {items : List item} {current : state} (start : holds done items current) :
    SucceedAlike (fun final values => holds (done ++ values) [] final)
      (items.foldlM step current) (items.mapM find) := by
  induction items generalizing done current with
  | nil => exact .ok (by simpa using start)
  | cons first rest ih =>
      rw [List.foldlM_cons, List.mapM_cons]
      refine (each done first rest current start).bind ?_
      intro next value isNext
      rw [← bind_pure (rest.foldlM step next)]
      refine (ih isNext).bind ?_
      intro final values isFinal
      exact .ok (by simpa using isFinal)

namespace Catalog

section

variable {self other : Catalog} (forms : List.Forall₂ IsOfForm self.classes other.classes)

include forms

theorem names_of_forms : other.names = self.names := by
  have sameNames : ∀ {infos others : List ClassInfo}, List.Forall₂ IsOfForm infos others →
      others.map ClassInfo.name = infos.map ClassInfo.name := by
    intro infos others forms
    induction forms with
    | nil => rfl
    | cons form _ ih => rw [List.map_cons, List.map_cons, form.1, ih]
  exact sameNames forms

theorem get?_of_forms (named : ClassName) :
    (other.get? named).map (fun info => (info.kind, info.typeParameters.length)) =
      (self.get? named).map fun info => (info.kind, info.typeParameters.length) := by
  have sameFound : ∀ {infos others : List ClassInfo}, List.Forall₂ IsOfForm infos others →
      (others.find? fun info => info.name = named.name).map
          (fun info => (info.kind, info.typeParameters.length)) =
        (infos.find? fun info => info.name = named.name).map
          fun info => (info.kind, info.typeParameters.length) := by
    intro infos others forms
    induction forms with
    | nil => rfl
    | @cons first image infos others form _ ih =>
        by_cases isNamed : first.name = named.name
        · simp [form.1, form.2.1, form.2.2, isNamed]
        · simpa [form.1, isNamed] using ih
  by_cases plain : named.dims = 0
  · simp only [get?, plain, if_true]
    exact sameFound forms
  · simp only [get?, plain, if_false, Option.map_none]

/-- Catalogs with classes of the same form in the same places have the same outline. -/
theorem hasSameOutline_of_forms : self.HasSameOutline other where
  declares := by
    intro name
    simp only [declares, names_of_forms forms]
  arity := by
    intro named
    have arity_eq : ∀ catalog : Catalog, catalog.arity named =
        (((catalog.get? named).map fun info => (info.kind, info.typeParameters.length)).map
          Prod.snd).getD 0 := by
      intro catalog
      cases found : catalog.get? named <;> simp [arity, typeParameters, found]
    rw [arity_eq, arity_eq, get?_of_forms forms]
  kind := by
    intro named
    have sameKinds := congrArg (Option.map Prod.fst) (get?_of_forms forms named)
    rwa [Option.map_map, Option.map_map] at sameKinds

end

/-- The catalogs have their outline and the order of their classes in common. -/
structure ReadsAlike (catalog other : Catalog) : Prop extends catalog.HasSameOutline other where
  names : other.names = catalog.names

theorem readsAlike_refl (self : Catalog) : self.ReadsAlike self :=
  ⟨⟨fun _ => rfl, fun _ => rfl, fun _ => rfl⟩, rfl⟩

theorem ReadsAlike.trans {first second third : Catalog} (left : first.ReadsAlike second)
    (right : second.ReadsAlike third) : first.ReadsAlike third where
  declares := fun name => (right.declares name).trans (left.declares name)
  arity := fun named => (right.arity named).trans (left.arity named)
  kind := fun named => (right.kind named).trans (left.kind named)
  names := right.names.trans left.names

section

variable {self other : Catalog} (alike : self.ReadsAlike other)

include alike

/-- Text is read in the same way, whatever has been filled in. -/
theorem ReadsAlike.parse (parameters : List TypeVariable) (depth : Nat) (text : String) :
    (other.declarationScope parameters).parse depth text =
      (self.declarationScope parameters).parse depth text := by
  have same := alike.toHasSameOutline
  have sameCandidates : ∀ name, (other.declarationScope parameters).candidates name =
      (self.declarationScope parameters).candidates name := by
    intro name
    simp only [Scope.candidates, declarationScope, imports, Imports.candidates, alike.names]
  have permuted : self.names.Perm other.names := by rw [alike.names]
  apply Scope.parse_congr
  · intro segments
    rcases segments with _ | ⟨first, _ | ⟨second, others⟩⟩
    · exact same.resolveDotted permuted parameters []
    · have sameParameters : (other.declarationScope parameters).parameters =
          (self.declarationScope parameters).parameters := rfl
      simp only [Scope.resolve, Scope.resolveSimple, sameParameters, sameCandidates, same.known]
    · exact same.resolveDotted permuted parameters (first :: second :: others)
  · exact same.applied parameters

theorem ReadsAlike.boundParameters (site : DeclarationSite) (earlier : List TypeVariable)
    (declarations : List ParameterDeclaration) :
    other.boundParameters site earlier declarations =
      self.boundParameters site earlier declarations := by
  induction declarations generalizing earlier with
  | nil => rfl
  | cons declaration rest ih =>
      have sameParse : (other.declarationScope earlier).parse defaultDepth =
          (self.declarationScope earlier).parse defaultDepth :=
        funext (alike.parse earlier defaultDepth)
      simp only [Catalog.boundParameters, sameParse, alike.boundVariable, ih]

theorem ReadsAlike.readSupertype (parameters : List TypeVariable) (kind : ClassKind)
    (text : String) :
    other.readSupertype parameters kind text = self.readSupertype parameters kind text := by
  simp only [Catalog.readSupertype, alike.parse, alike.checkSupertype]

/-- A declaration is linked to the same, whatever has been filled in. -/
theorem ReadsAlike.link (declaration : ClassDeclaration) (parameters : List TypeVariable) :
    other.link declaration parameters = self.link declaration parameters := by
  have sameRead : other.readSupertype parameters .interface =
      self.readSupertype parameters .interface :=
    funext (alike.readSupertype parameters .interface)
  simp only [Catalog.link, superclassOf, sameRead, alike.readSupertype]

end

section

variable {self : Catalog} {kept others : List ClassInfo} {info : ClassInfo}
  (divided : self.classes = kept ++ info :: others)

include divided

theorem get?_of_divided : self.get? (.plain info.name) = some info := by
  apply get?_of_mem
  rw [divided]
  exact List.mem_append_right _ List.mem_cons_self

/-- An update changes the one class of the name in its place. -/
theorem classes_update {change : ClassInfo → ClassInfo} (form : IsOfForm info (change info)) :
    (self.update (.plain info.name) change).classes = kept ++ change info :: others := by
  rw [update, get?_of_divided divided]
  exact classes_replace divided form.1.symm

/-- A change of a class within its form is not seen when declarations are read. -/
theorem readsAlike_update {change : ClassInfo → ClassInfo} (form : IsOfForm info (change info)) :
    self.ReadsAlike (self.update (.plain info.name) change) := by
  have forms : List.Forall₂ IsOfForm self.classes
      (self.update (.plain info.name) change).classes := by
    have unchanged : ∀ infos, List.Forall₂ IsOfForm infos infos :=
      fun _ => List.forall₂_same.2 fun _ _ => ⟨rfl, rfl, rfl⟩
    rw [classes_update divided form, divided]
    exact List.rel_append (unchanged kept) (.cons form (unchanged others))
  exact ⟨hasSameOutline_of_forms forms, names_of_forms forms⟩

end

/-- What is known of a class with its type parameters before its supertypes are read. -/
def boundedSkeleton (pair : ClassDeclaration × List TypeVariable) : ClassInfo :=
  { pair.1.skeleton with typeParameters := pair.2 }

/-- The type parameters of some declarations are filled in, the others are skeletons. -/
structure IsBoundedUpTo (skeletons : Catalog) (kept : List ClassInfo)
    (declarations : List ClassDeclaration) (done : List (ClassDeclaration × List TypeVariable))
    (rest : List ClassDeclaration) (catalog : Catalog) : Prop where
  alike : skeletons.ReadsAlike catalog
  divided : catalog.classes = kept ++ done.map boundedSkeleton ++
    rest.map ClassDeclaration.skeleton
  read : done.map Prod.fst ++ rest = declarations

/--
Filling in the parameters of the next class finds what is found against the skeletons, or fails
alike.
-/
theorem IsBoundedUpTo.boundClass {current skeletons : Catalog} {kept : List ClassInfo}
    {declarations : List ClassDeclaration} {done : List (ClassDeclaration × List TypeVariable)}
    {first : ClassDeclaration} {rest : List ClassDeclaration}
    (bounded : skeletons.IsBoundedUpTo kept declarations done (first :: rest) current) :
    SucceedAlike
      (fun next pair => skeletons.IsBoundedUpTo kept declarations (done ++ [pair]) rest next)
      (current.boundClass first)
      ((inDeclaration first (skeletons.typeParametersOf first)).map (first, ·)) := by
  rcases bounded with ⟨alike, divided, read⟩
  have isRead : ∀ parameters, (done ++ [(first, parameters)]).map Prod.fst ++ rest = declarations := by
    intro parameters
    simpa using read
  simp only [Catalog.boundClass, typeParametersOf]
  split
  · rw [alike.boundParameters]
    cases isBounded : skeletons.boundParameters first.site [] first.typeParameters with
    | error cause => exact .error _
    | ok parameters =>
        let change : ClassInfo → ClassInfo := fun info => { info with typeParameters := parameters }
        have form : IsOfForm first.skeleton (change first.skeleton) :=
          ⟨rfl, rfl, by simp [change, ClassDeclaration.skeleton, length_boundParameters isBounded]⟩
        have seen := readsAlike_update divided form
        have updated := classes_update divided form
        refine .ok ⟨alike.trans seen, updated.trans ?_, isRead parameters⟩
        simp [boundedSkeleton, change, ClassDeclaration.skeleton]
  · refine .ok ⟨alike, ?_, isRead first.skeleton.typeParameters⟩
    simpa [boundedSkeleton] using divided

/-- Some classes are what their declarations link to, the others have their type parameters only. -/
structure IsLinkedUpTo (skeletons : Catalog) (kept done : List ClassInfo)
    (rest : List (ClassDeclaration × List TypeVariable)) (catalog : Catalog) : Prop where
  alike : skeletons.ReadsAlike catalog
  divided : catalog.classes = kept ++ done ++ rest.map boundedSkeleton

/--
Filling in the supertypes of the next class finds what is found against the skeletons, or fails
alike.
-/
theorem IsLinkedUpTo.linkClass {current skeletons : Catalog} {kept done : List ClassInfo}
    {first : ClassDeclaration × List TypeVariable}
    {rest : List (ClassDeclaration × List TypeVariable)}
    (linked : skeletons.IsLinkedUpTo kept done (first :: rest) current) :
    SucceedAlike (fun next info => skeletons.IsLinkedUpTo kept (done ++ [info]) rest next)
      (current.linkClass first.1) (inDeclaration first.1 (skeletons.link first.1 first.2)) := by
  rcases linked with ⟨alike, divided⟩
  have found : current.get? (.plain first.1.name) = some (boundedSkeleton first) :=
    get?_of_divided divided
  have areParameters : current.typeParameters (.plain first.1.name) = first.2 := by
    simp only [typeParameters, found, boundedSkeleton]
  simp only [Catalog.linkClass, areParameters, alike.link]
  cases isLinked : skeletons.link first.1 first.2 with
  | error cause => exact .error _
  | ok info =>
      rcases link_eq_ok.1 isLinked with ⟨superclass, interfaces, -, -, rfl⟩
      let change : ClassInfo → ClassInfo := fun info =>
        { info with superclass := superclass, interfaces := interfaces }
      have form : IsOfForm (boundedSkeleton first) (change (boundedSkeleton first)) :=
        ⟨rfl, rfl, rfl⟩
      have seen := readsAlike_update divided form
      have updated := classes_update divided form
      refine .ok ⟨alike.trans seen, updated.trans ?_⟩
      simp [boundedSkeleton, change, ClassDeclaration.skeleton]

/-- When all classes are filled in, each has taken the place of its skeleton. -/
theorem IsLinkedUpTo.eq_foldl_replace {self final skeletons : Catalog} {linked : List ClassInfo}
    {declarations : List ClassDeclaration}
    (declared : self.declareAll declarations = .ok skeletons)
    (isLinked : skeletons.IsLinkedUpTo self.classes linked [] final) :
    final = linked.foldl replace skeletons := by
  have divided : final.classes = self.classes ++ linked := by simpa using isLinked.divided
  have skeletonsDivided := classes_declareAll declared
  have sameNames := isLinked.alike.names
  rw [names, names, divided, skeletonsDivided, List.map_append, List.map_append,
    List.append_cancel_left_eq] at sameNames
  apply eq_of_classes
  rw [divided, classes_foldl_replace skeletonsDivided sameNames]

/-- Adding a document class by class is the same as reading all declarations against the skeletons. -/
theorem extendByPasses_eq (self : Catalog) (document : Document) :
    self.extendByPasses document = self.extend document := by
  apply SucceedAlike.eq
  simp only [extendByPasses, extend]
  cases declared : self.declareAll document.classes with
  | error cause => exact .error cause
  | ok skeletons =>
      have start : skeletons.IsBoundedUpTo self.classes document.classes [] document.classes
          skeletons :=
        ⟨readsAlike_refl skeletons, by simpa using classes_declareAll declared, rfl⟩
      refine (SucceedAlike.foldlM_mapM (fun _ _ _ _ => IsBoundedUpTo.boundClass) start).bind ?_
      intro bounded pairs isBounded
      have read : pairs.map Prod.fst = document.classes := by simpa using isBounded.read
      have startLinking : skeletons.IsLinkedUpTo self.classes [] pairs bounded :=
        ⟨isBounded.alike, by simpa using isBounded.divided⟩
      rw [← read, List.foldlM_map, ← bind_pure (List.foldlM _ _ pairs)]
      refine (SucceedAlike.foldlM_mapM (fun _ _ _ _ => IsLinkedUpTo.linkClass) startLinking).bind ?_
      intro final linked isLinked
      exact .ok (isLinked.eq_foldl_replace declared)

end Catalog

end NominalTypes
