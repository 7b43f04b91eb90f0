import NominalTypes.Catalog.Loading
import NominalTypes.Proofs.Sequencing

/-!
# What an accepted document adds

A catalog that is extended by a document keeps its classes and gets one class for each declaration
behind them, in order. What is known of a class is linked to the skeletons of all declarations, and
these are of the same kind and have as many type parameters as the classes that take their places.
-/

namespace NominalTypes

namespace Catalog

theorem eq_of_classes {left right : Catalog} (same : left.classes = right.classes) :
    left = right := by
  cases left
  cases right
  cases same
  rfl

/-- A class is found by its name, since no other one has the name. -/
theorem get?_of_mem {self : Catalog} {info : ClassInfo} (member : info ∈ self.classes) :
    self.get? (.plain info.name) = some info := by
  have found : ∀ classes : List ClassInfo, (classes.map ClassInfo.name).Nodup →
      info ∈ classes → classes.find? (fun other => other.name = info.name) = some info := by
    intro classes distinct member
    induction classes with
    | nil => cases member
    | cons first rest ih =>
        rw [List.map_cons, List.nodup_cons] at distinct
        rcases List.mem_cons.1 member with rfl | later
        · simp
        · have different : first.name ≠ info.name := by
            intro same
            exact distinct.1 (same ▸ List.mem_map_of_mem later)
          simpa [different] using ih distinct.2 later
  exact found self.classes self.distinct member

theorem get?_of_append {self extended : Catalog} {added : List ClassInfo}
    (appended : extended.classes = self.classes ++ added) {named : ClassName} {info : ClassInfo}
    (found : self.get? named = some info) : extended.get? named = some info := by
  have plain := get?_dims found
  simp only [get?, plain, if_true] at found ⊢
  rw [appended, List.find?_append, found]
  rfl

theorem arity_of_get? {self : Catalog} {named : ClassName} {info : ClassInfo}
    (found : self.get? named = some info) : self.arity named = info.typeParameters.length := by
  simp [arity, typeParameters, found]

theorem exists_get?_of_arity {self : Catalog} {named : ClassName} (generic : self.arity named ≠ 0) :
    ∃ info, self.get? named = some info := by
  cases found : self.get? named with
  | none => simp [arity, typeParameters, found] at generic
  | some info => exact ⟨info, rfl⟩

/-- Each class is declared in the other catalog too, of the same kind and with as many parameters. -/
def IsKeptBy (self other : Catalog) : Prop :=
  ∀ named info, self.get? named = some info → ∃ kept, other.get? named = some kept ∧
    kept.kind = info.kind ∧ kept.typeParameters.length = info.typeParameters.length

theorem IsKeptBy.refl (self : Catalog) : self.IsKeptBy self :=
  fun _ info found => ⟨info, found, rfl, rfl⟩

theorem IsKeptBy.trans {self middle later : Catalog} (first : self.IsKeptBy middle)
    (second : middle.IsKeptBy later) : self.IsKeptBy later := by
  intro named info found
  rcases first named info found with ⟨_, foundThere, sameKind, sameLength⟩
  rcases second named _ foundThere with ⟨kept, isKept, sameKindToo, sameLengthToo⟩
  exact ⟨kept, isKept, sameKindToo.trans sameKind, sameLengthToo.trans sameLength⟩

theorem isKeptBy_of_append {self extended : Catalog} {added : List ClassInfo}
    (appended : extended.classes = self.classes ++ added) : self.IsKeptBy extended :=
  fun _ info found => ⟨info, get?_of_append appended found, rfl, rfl⟩

/-- The class that is put in the place of a skeleton is of the same form. -/
def IsOfForm (skeleton info : ClassInfo) : Prop :=
  info.name = skeleton.name ∧ info.kind = skeleton.kind ∧
    info.typeParameters.length = skeleton.typeParameters.length

theorem isKeptBy_of_forall₂ {self other : Catalog}
    (alike : List.Forall₂ IsOfForm self.classes other.classes) : self.IsKeptBy other := by
  intro named info found
  rcases exists_of_forall₂ alike (mem_classes_of_get? found) with
    ⟨kept, isKept, sameName, sameKind, sameLength⟩
  refine ⟨kept, ?_, sameKind, sameLength⟩
  rw [← get?_of_mem isKept, sameName, get?_name found]
  exact congrArg other.get? (ClassName.element_of_dims (get?_dims found)).symm

theorem IsKeptBy.arity {self other : Catalog} (kept : self.IsKeptBy other) {named : ClassName}
    (generic : self.arity named ≠ 0) : other.arity named = self.arity named := by
  rcases exists_get?_of_arity generic with ⟨info, found⟩
  rcases kept named info found with ⟨later, isLater, -, sameLength⟩
  rw [arity_of_get? found, arity_of_get? isLater, sameLength]

theorem exists_get?_of_declares {self : Catalog} {name : String}
    (declared : self.declares name = true) : ∃ info, self.get? (.plain name) = some info := by
  rcases List.mem_map.1 (of_decide_eq_true declared) with ⟨info, member, rfl⟩
  exact ⟨info, get?_of_mem member⟩

theorem declares_of_get? {self : Catalog} {named : ClassName} {info : ClassInfo}
    (found : self.get? named = some info) : self.declares named.name = true := by
  rw [← get?_name found]
  exact decide_eq_true (List.mem_map_of_mem (mem_classes_of_get? found))

theorem IsKeptBy.contains {self other : Catalog} (kept : self.IsKeptBy other) {named : ClassName}
    (contained : self.contains named = true) : other.contains named = true := by
  simp only [Catalog.contains, Bool.or_eq_true] at contained ⊢
  rcases contained with isPrimitive | declared
  · exact Or.inl isPrimitive
  · rcases exists_get?_of_declares declared with ⟨info, found⟩
    rcases kept _ info found with ⟨later, isLater, -⟩
    have isDeclared : other.declares (ClassName.plain named.name).name = true :=
      declares_of_get? isLater
    exact Or.inr isDeclared

/-- The catalogs have the same facts about the class: kind, type parameters and supertypes. -/
structure HasSameFacts (catalog other : Catalog) (named : ClassName) : Prop where
  kind : (other.get? named).map ClassInfo.kind = (catalog.get? named).map ClassInfo.kind
  typeParameters : other.typeParameters named = catalog.typeParameters named
  superclass : other.superclass named = catalog.superclass named
  interfaces : other.interfaces named = catalog.interfaces named

theorem classes_declare? {self extended : Catalog} {info : ClassInfo}
    (declared : self.declare? info = some extended) : extended.classes = self.classes ++ [info] := by
  simp only [declare?] at declared
  split at declared
  · cases declared
  · cases declared
    rfl

/-- The skeletons of all declarations stand behind the classes that were there. -/
theorem classes_declareAll {self skeletons : Catalog} {declarations : List ClassDeclaration}
    (declared : self.declareAll declarations = .ok skeletons) :
    skeletons.classes = self.classes ++ declarations.map ClassDeclaration.skeleton := by
  induction declarations generalizing self with
  | nil =>
      cases declared
      simp
  | cons first rest ih =>
      rcases bind_eq_ok.1 declared with ⟨middle, isMiddle, isRest⟩
      cases isDeclared : self.declare? first.skeleton with
      | none => simp [isDeclared] at isMiddle
      | some extended =>
          simp only [isDeclared, Except.ok.injEq] at isMiddle
          subst isMiddle
          rw [ih isRest, classes_declare? isDeclared]
          simp

theorem map_replace_eq_self {classes : List ClassInfo} {info : ClassInfo}
    (absent : ∀ old ∈ classes, old.name ≠ info.name) :
    classes.map (fun old => if old.name = info.name then info else old) = classes := by
  refine (List.map_congr_left ?_).trans (List.map_id _)
  intro old member
  exact if_neg (absent old member)

/-- A class takes the place of the class of its name. -/
theorem classes_replace {self : Catalog} {kept others : List ClassInfo} {old info : ClassInfo}
    (divided : self.classes = kept ++ old :: others) (sameName : old.name = info.name) :
    (self.replace info).classes = kept ++ info :: others := by
  have distinct := self.distinct
  rw [divided, List.map_append, List.map_cons, List.nodup_append, List.nodup_cons] at distinct
  rcases distinct with ⟨-, ⟨notLater, -⟩, notEarlier⟩
  have keptDiffer : ∀ other ∈ kept, other.name ≠ info.name := by
    intro other isKept same
    exact notEarlier _ (List.mem_map_of_mem isKept) _ List.mem_cons_self
      (same.trans sameName.symm)
  have othersDiffer : ∀ other ∈ others, other.name ≠ info.name := by
    intro other isOther same
    exact notLater (sameName.trans same.symm ▸ List.mem_map_of_mem isOther)
  simp only [replace, divided, List.map_append, List.map_cons, sameName, if_true,
    map_replace_eq_self keptDiffer, map_replace_eq_self othersDiffer]

/-- Classes of the same names in order take the places of the last classes of a catalog. -/
theorem classes_foldl_replace {self : Catalog} {kept old new : List ClassInfo}
    (divided : self.classes = kept ++ old)
    (sameNames : new.map ClassInfo.name = old.map ClassInfo.name) :
    (new.foldl replace self).classes = kept ++ new := by
  induction new generalizing self kept old with
  | nil =>
      rw [List.map_eq_nil_iff.1 sameNames.symm] at divided
      exact divided
  | cons first rest ih =>
      rcases List.map_eq_cons_iff.1 sameNames.symm with ⟨skeleton, others, rfl, sameName, sameNames⟩
      have replaced : (self.replace first).classes = (kept ++ [first]) ++ others := by
        rw [classes_replace divided sameName, List.append_assoc, List.singleton_append]
      rw [List.foldl_cons, ih replaced sameNames.symm, List.append_assoc, List.singleton_append]

/-- The class is what the declaration says with its names read against the skeletons. -/
def Links (skeletons : Catalog) (declaration : ClassDeclaration) (info : ClassInfo) : Prop :=
  ∃ parameters, skeletons.typeParametersOf declaration = .ok parameters ∧
    skeletons.link declaration parameters = .ok info

theorem inDeclaration_eq_ok {result : Type} {declaration : ClassDeclaration}
    {step : Except TypeError result} {final : result} :
    inDeclaration declaration step = .ok final ↔ step = .ok final := by
  cases step <;> simp [inDeclaration]

theorem length_boundParameters {self : Catalog} {site : DeclarationSite}
    {earlier parameters : List TypeVariable} {declarations : List ParameterDeclaration}
    (bounded : self.boundParameters site earlier declarations = .ok parameters) :
    parameters.length = earlier.length + declarations.length := by
  induction declarations generalizing earlier with
  | nil =>
      cases bounded
      rfl
  | cons first rest ih =>
      rcases bind_eq_ok.1 bounded with ⟨bounds, -, bounded⟩
      rcases bind_eq_ok.1 bounded with ⟨parameter, -, bounded⟩
      rw [ih bounded, List.length_append, List.length_singleton, List.length_cons]
      omega

/-- A declaration has as many type parameters when their bounds are read. -/
theorem length_typeParametersOf {self : Catalog} {declaration : ClassDeclaration}
    {parameters : List TypeVariable}
    (bounded : self.typeParametersOf declaration = .ok parameters) :
    parameters.length = declaration.typeParameters.length := by
  simp only [typeParametersOf] at bounded
  split at bounded
  · simpa using length_boundParameters bounded
  · cases bounded
    simp [ClassDeclaration.skeleton]

/-- A supertype is read like other text, and then checked. -/
theorem readSupertype_eq_ok_iff {self : Catalog} {parameters : List TypeVariable}
    {kind : ClassKind} {text : String} {ty : Ty} :
    self.readSupertype parameters kind text = .ok ty ↔
      (self.declarationScope parameters).parse defaultDepth text = .ok ty ∧
        self.checkSupertype kind ty = .ok () := by
  simp only [readSupertype, bind_eq_ok, Except.ok.injEq]
  constructor
  · rintro ⟨_, isParsed, _, accepted, rfl⟩
    exact ⟨isParsed, accepted⟩
  · rintro ⟨isParsed, accepted⟩
    exact ⟨ty, isParsed, (), accepted, rfl⟩

/-- A class is linked to its superclass and interfaces, each of which is read on its own. -/
theorem link_eq_ok {self : Catalog} {declaration : ClassDeclaration}
    {parameters : List TypeVariable} {info : ClassInfo} :
    self.link declaration parameters = .ok info ↔
      ∃ superclass interfaces, self.superclassOf parameters declaration = .ok superclass ∧
        List.Forall₂ (fun text ty => self.readSupertype parameters .interface text = .ok ty)
          declaration.interfaces interfaces ∧
        info = ⟨declaration.name, declaration.kind, parameters, superclass, interfaces⟩ := by
  simp only [link, bind_eq_ok, mapM_eq_ok, Except.ok.injEq]
  constructor
  · rintro ⟨superclass, isSuperclass, interfaces, areInterfaces, rfl⟩
    exact ⟨superclass, interfaces, isSuperclass, areInterfaces, rfl⟩
  · rintro ⟨superclass, interfaces, isSuperclass, areInterfaces, rfl⟩
    exact ⟨superclass, isSuperclass, interfaces, areInterfaces, rfl⟩

/-- A linked class has the form of its skeleton. -/
theorem Links.isOfForm {skeletons : Catalog} {declaration : ClassDeclaration} {info : ClassInfo}
    (links : skeletons.Links declaration info) : IsOfForm declaration.skeleton info := by
  rcases links with ⟨parameters, bounded, linked⟩
  rcases link_eq_ok.1 linked with ⟨superclass, interfaces, -, -, rfl⟩
  exact ⟨rfl, rfl, by simp [ClassDeclaration.skeleton, length_typeParametersOf bounded]⟩

/--
Two passes over the declarations, for bounds and for supertypes, give what each declaration links
to.
-/
theorem links_of_steps {skeletons : Catalog} {declarations : List ClassDeclaration}
    {bounded : List (ClassDeclaration × List TypeVariable)} {linked : List ClassInfo}
    (areBounded : List.Forall₂ (fun declaration pair =>
      (inDeclaration declaration (skeletons.typeParametersOf declaration)).map (declaration, ·) =
        .ok pair) declarations bounded)
    (areLinked : List.Forall₂ (fun pair info =>
      inDeclaration pair.1 (skeletons.link pair.1 pair.2) = .ok info) bounded linked) :
    List.Forall₂ skeletons.Links declarations linked := by
  induction areBounded generalizing linked with
  | nil =>
      cases areLinked
      exact .nil
  | @cons declaration pair declarations pairs isBounded _ ih =>
      cases areLinked with
      | @cons _ info _ _ isLinked areLinked =>
          refine .cons ?_ (ih areLinked)
          rcases map_eq_ok.1 isBounded with ⟨parameters, read, rfl⟩
          exact ⟨parameters, inDeclaration_eq_ok.1 read, inDeclaration_eq_ok.1 isLinked⟩

theorem names_of_links {skeletons : Catalog} {declarations : List ClassDeclaration}
    {linked : List ClassInfo} (links : List.Forall₂ skeletons.Links declarations linked) :
    linked.map ClassInfo.name =
      (declarations.map ClassDeclaration.skeleton).map ClassInfo.name := by
  induction links with
  | nil => rfl
  | cons first _ ih => simp only [List.map_cons, first.isOfForm.1, ih]

/-- An accepted document adds the classes that its declarations link to. -/
theorem exists_linked_of_extend {self extended : Catalog} {document : Document}
    (accepted : self.extend document = .ok extended) :
    ∃ skeletons linked, self.declareAll document.classes = .ok skeletons ∧
      List.Forall₂ skeletons.Links document.classes linked ∧
      extended.classes = self.classes ++ linked := by
  simp only [extend, bind_eq_ok, mapM_eq_ok, Except.ok.injEq] at accepted
  rcases accepted with ⟨skeletons, declared, bounded, areBounded, linked, areLinked, rfl⟩
  have links := links_of_steps areBounded areLinked
  exact ⟨skeletons, linked, declared, links,
    classes_foldl_replace (classes_declareAll declared) (names_of_links links)⟩

/-- An accepted document adds the names of its declarations in order. -/
theorem names_of_extend {self extended : Catalog} {document : Document}
    (accepted : self.extend document = .ok extended) :
    extended.names = self.names ++ document.classes.map ClassDeclaration.name := by
  rcases exists_linked_of_extend accepted with ⟨skeletons, linked, -, links, divided⟩
  rw [names, divided, List.map_append, names_of_links links, List.map_map]
  rfl

/-- The skeletons are kept by the catalog with the linked classes in their places. -/
theorem skeletons_isKeptBy {self skeletons extended : Catalog}
    {declarations : List ClassDeclaration} {linked : List ClassInfo}
    (declared : self.declareAll declarations = .ok skeletons)
    (links : List.Forall₂ skeletons.Links declarations linked)
    (divided : extended.classes = self.classes ++ linked) : skeletons.IsKeptBy extended := by
  apply isKeptBy_of_forall₂
  rw [divided, classes_declareAll declared]
  apply List.rel_append
  · exact List.forall₂_same.2 fun _ _ => ⟨rfl, rfl, rfl⟩
  · rw [List.forall₂_map_left_iff]
    exact links.imp fun _ _ link => link.isOfForm

end Catalog

end NominalTypes
