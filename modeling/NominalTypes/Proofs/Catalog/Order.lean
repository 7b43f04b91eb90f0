import Mathlib.Data.List.Nodup
import Mathlib.Data.List.Perm.Basic
import NominalTypes.Proofs.Catalog.Outline

/-!
# The order of declarations

A document is accepted in any order of its classes or in none, and what is known of a class afterwards
does not depend on the order. The skeletons that the declarations are read against have the same outline
in each order, so that each declaration is read to the same class; with the imports in another order
only errors differ.
-/

namespace NominalTypes

namespace Catalog

theorem get?_eq_some_iff {self : Catalog} {named : ClassName} {info : ClassInfo} :
    self.get? named = some info ↔
      named.dims = 0 ∧ info ∈ self.classes ∧ info.name = named.name := by
  constructor
  · intro found
    exact ⟨get?_dims found, mem_classes_of_get? found, get?_name found⟩
  · rintro ⟨plain, member, isName⟩
    have isNamed : ClassName.plain info.name = named := by
      rw [isName]
      exact ClassName.element_of_dims plain
    rw [← isNamed]
    exact get?_of_mem member

section

variable {left right : Catalog} (permuted : left.classes.Perm right.classes)

include permuted

theorem get?_of_perm (named : ClassName) : right.get? named = left.get? named := by
  apply Option.ext
  intro info
  rw [get?_eq_some_iff, get?_eq_some_iff, permuted.mem_iff]

theorem names_perm : left.names.Perm right.names := permuted.map ClassInfo.name

/-- The order of the classes is no part of the outline. -/
theorem hasSameOutline_of_perm : left.HasSameOutline right where
  declares := by
    intro name
    rw [declares, declares, decide_eq_decide]
    exact (names_perm permuted).mem_iff.symm
  arity := by
    intro named
    simp only [arity, typeParameters, get?_of_perm permuted]
  kind := by
    intro named
    rw [get?_of_perm permuted]

/-- Catalogs of the same classes have the same facts about each class, about array classes as well. -/
theorem hasSameFacts_of_perm (named : ClassName) : left.HasSameFacts right named := by
  have outline := hasSameOutline_of_perm permuted
  have sameInfo := get?_of_perm permuted named
  have sameDeclares : right.declares = left.declares := funext outline.declares
  refine ⟨outline.kind named, ?_, ?_, ?_⟩
  · simp only [typeParameters, sameInfo]
  · simp only [superclass, sameInfo, outline.contains]
  · simp only [interfaces, sameInfo, outline.contains, sameDeclares]

end

section

variable {self other : Catalog} (same : self.HasSameOutline other)
  (permuted : self.names.Perm other.names)

include same permuted

theorem boundParameters_of_perm {site : DeclarationSite} {earlier parameters : List TypeVariable}
    {declarations : List ParameterDeclaration}
    (bounded : self.boundParameters site earlier declarations = .ok parameters) :
    other.boundParameters site earlier declarations = .ok parameters := by
  induction declarations generalizing earlier with
  | nil => exact bounded
  | cons declaration rest ih =>
      refine bind_eq_ok_mono bounded ?_ ?_
      · intro bounds areBounds
        refine mapM_eq_ok.2 ((mapM_eq_ok.1 areBounds).imp ?_)
        intro text ty read
        exact Scope.parse_of_answers (same.answers permuted earlier) read
      · intro bounds bounded
        rw [same.boundVariable]
        exact bind_eq_ok_mono bounded (fun _ => id) fun _ => ih

theorem typeParametersOf_of_perm {declaration : ClassDeclaration} {parameters : List TypeVariable}
    (bounded : self.typeParametersOf declaration = .ok parameters) :
    other.typeParametersOf declaration = .ok parameters := by
  simp only [typeParametersOf] at bounded ⊢
  split at bounded
  · next isBounded =>
    rw [if_pos isBounded]
    exact boundParameters_of_perm same permuted bounded
  · next isUnbounded => rwa [if_neg isUnbounded]

theorem readSupertype_of_perm {parameters : List TypeVariable} {kind : ClassKind} {text : String}
    {ty : Ty} (read : self.readSupertype parameters kind text = .ok ty) :
    other.readSupertype parameters kind text = .ok ty := by
  rcases readSupertype_eq_ok_iff.1 read with ⟨isParsed, accepted⟩
  have parsedToo := Scope.parse_of_answers (same.answers permuted parameters) isParsed
  exact readSupertype_eq_ok_iff.2 ⟨parsedToo, by rwa [same.checkSupertype]⟩

theorem superclassOf_of_perm {parameters : List TypeVariable} {declaration : ClassDeclaration}
    {superclass : Option Ty}
    (isSuperclass : self.superclassOf parameters declaration = .ok superclass) :
    other.superclassOf parameters declaration = .ok superclass := by
  simp only [superclassOf] at isSuperclass ⊢
  split at isSuperclass
  · cases isSuperclass
  · exact isSuperclass
  · next text _ _ =>
    rcases map_eq_ok.1 isSuperclass with ⟨ty, read, rfl⟩
    exact map_eq_ok.2 ⟨ty, readSupertype_of_perm same permuted read, rfl⟩
  · exact isSuperclass

/-- A declaration links to the same class, whatever order the classes of its catalog are in. -/
theorem Links.of_perm {declaration : ClassDeclaration} {info : ClassInfo}
    (links : self.Links declaration info) : other.Links declaration info := by
  rcases links with ⟨parameters, bounded, linked⟩
  refine ⟨parameters, typeParametersOf_of_perm same permuted bounded, ?_⟩
  rcases link_eq_ok.1 linked with ⟨superclass, interfaces, isSuperclass, areInterfaces, rfl⟩
  refine link_eq_ok.2 ⟨superclass, interfaces, ?_, ?_, rfl⟩
  · exact superclassOf_of_perm same permuted isSuperclass
  · exact areInterfaces.imp fun _ _ => readSupertype_of_perm same permuted

end

theorem names_skeletons (declarations : List ClassDeclaration) :
    (declarations.map ClassDeclaration.skeleton).map ClassInfo.name =
      declarations.map ClassDeclaration.name := by
  rw [List.map_map]
  rfl

/-- The classes of a document can be declared if no name is declared twice then. -/
theorem exists_declareAll_iff {self : Catalog} {declarations : List ClassDeclaration} :
    (∃ skeletons, self.declareAll declarations = .ok skeletons) ↔
      (self.names ++ declarations.map ClassDeclaration.name).Nodup := by
  constructor
  · rintro ⟨skeletons, declared⟩
    have distinct := skeletons.distinct
    rwa [classes_declareAll declared, List.map_append, names_skeletons] at distinct
  · intro distinct
    induction declarations generalizing self with
    | nil => exact ⟨self, rfl⟩
    | cons first rest ih =>
        cases isDeclared : self.declare? first.skeleton with
        | none =>
            simp only [declare?] at isDeclared
            split at isDeclared
            · next known =>
              have repeated := List.disjoint_of_nodup_append distinct known
              exact absurd List.mem_cons_self repeated
            · cases isDeclared
        | some extended =>
            have extendedDistinct :
                (extended.names ++ rest.map ClassDeclaration.name).Nodup := by
              rw [names_declare? isDeclared, List.append_assoc]
              exact distinct
            rcases ih extendedDistinct with ⟨skeletons, isRest⟩
            refine ⟨skeletons, bind_eq_ok.2 ⟨extended, ?_, isRest⟩⟩
            simp only [isDeclared]

/-- What declarations link to is found in two passes, for bounds and for supertypes. -/
theorem exists_steps_of_links {skeletons : Catalog} {declarations : List ClassDeclaration}
    {linked : List ClassInfo} (links : List.Forall₂ skeletons.Links declarations linked) :
    ∃ bounded, List.Forall₂ (fun declaration pair =>
        (inDeclaration declaration (skeletons.typeParametersOf declaration)).map (declaration, ·) =
          .ok pair) declarations bounded ∧
      List.Forall₂ (fun pair info =>
        inDeclaration pair.1 (skeletons.link pair.1 pair.2) = .ok info) bounded linked := by
  induction links with
  | nil => exact ⟨[], .nil, .nil⟩
  | @cons declaration info declarations linked link _ ih =>
      rcases link with ⟨parameters, isBounded, isLinked⟩
      rcases ih with ⟨bounded, areBounded, areLinked⟩
      refine ⟨(declaration, parameters) :: bounded, .cons ?_ areBounded, .cons ?_ areLinked⟩
      · rw [inDeclaration_eq_ok.2 isBounded]
        rfl
      · exact inDeclaration_eq_ok.2 isLinked

/-- A document is accepted when its classes can be declared and all its declarations link. -/
theorem exists_extend_of_links {self skeletons : Catalog} {document : Document}
    {linked : List ClassInfo} (declared : self.declareAll document.classes = .ok skeletons)
    (links : List.Forall₂ skeletons.Links document.classes linked) :
    ∃ extended, self.extend document = .ok extended ∧
      extended.classes = self.classes ++ linked := by
  rcases exists_steps_of_links links with ⟨bounded, areBounded, areLinked⟩
  refine ⟨linked.foldl replace skeletons, ?_, ?_⟩
  · refine bind_eq_ok.2 ⟨skeletons, declared, ?_⟩
    refine bind_eq_ok.2 ⟨bounded, mapM_eq_ok.2 areBounded, ?_⟩
    exact bind_eq_ok.2 ⟨linked, mapM_eq_ok.2 areLinked, rfl⟩
  · exact classes_foldl_replace (classes_declareAll declared) (names_of_links links)

/-- With its classes in another order, an accepted document adds the same classes in another order. -/
theorem exists_extend_of_perm {self left : Catalog} {first second : Document}
    (permuted : first.classes.Perm second.classes) (accepted : self.extend first = .ok left) :
    ∃ right, self.extend second = .ok right ∧ left.classes.Perm right.classes := by
  rcases exists_linked_of_extend accepted with ⟨skeletons, linked, declared, links, divided⟩
  have distinct := exists_declareAll_iff.1 ⟨skeletons, declared⟩
  rw [((permuted.map ClassDeclaration.name).append_left self.names).nodup_iff] at distinct
  rcases exists_declareAll_iff.2 distinct with ⟨others, otherDeclared⟩
  have permutedSkeletons : skeletons.classes.Perm others.classes := by
    rw [classes_declareAll declared, classes_declareAll otherDeclared]
    exact (permuted.map ClassDeclaration.skeleton).append_left self.classes
  have otherLinks : List.Forall₂ others.Links first.classes linked :=
    links.imp fun _ _ =>
      Links.of_perm (hasSameOutline_of_perm permutedSkeletons) (names_perm permutedSkeletons)
  rcases List.perm_comp_forall₂ permuted.symm otherLinks with ⟨reordered, isLinked, isPermuted⟩
  rcases exists_extend_of_links otherDeclared isLinked with ⟨right, isAccepted, isDivided⟩
  refine ⟨right, isAccepted, ?_⟩
  rw [divided, isDivided]
  exact isPermuted.symm.append_left self.classes

/--
Documents of the same declarations in different orders are both accepted or both refused, and then what
is known of each class is the same.
-/
theorem extend_perm (self : Catalog) {first second : Document}
    (permuted : first.classes.Perm second.classes) :
    ((∃ left, self.extend first = .ok left) ↔ ∃ right, self.extend second = .ok right) ∧
      ∀ left right, self.extend first = .ok left → self.extend second = .ok right →
        ∀ named, right.contains named = left.contains named ∧ left.HasSameFacts right named := by
  constructor
  · constructor
    · rintro ⟨left, accepted⟩
      rcases exists_extend_of_perm permuted accepted with ⟨right, isAccepted, -⟩
      exact ⟨right, isAccepted⟩
    · rintro ⟨right, accepted⟩
      rcases exists_extend_of_perm permuted.symm accepted with ⟨left, isAccepted, -⟩
      exact ⟨left, isAccepted⟩
  · intro left right accepted otherAccepted named
    rcases exists_extend_of_perm permuted accepted with ⟨other, isAccepted, isPermuted⟩
    rw [otherAccepted] at isAccepted
    cases isAccepted
    exact ⟨(hasSameOutline_of_perm isPermuted).contains named, hasSameFacts_of_perm isPermuted named⟩

/-- A class with a bounded type parameter, before the interface that its declaration names. -/
def forwardDocument : Document where
  classes := [
    { name := "a.Sorted", typeParameters := [{ name := "K" }, { name := "V", bounds := ["Order<K>"] }],
      interfaces := ["Order<? super V>"] },
    { name := "a.Order", kind := .interface, typeParameters := [{ name := "E" }] }]

/-- The same declarations, each behind the ones that it names. -/
def backwardDocument : Document := ⟨forwardDocument.classes.reverse⟩

/-- The bounds and supertypes of a class may name classes before it and behind it. -/
theorem extend_perm_sorted :
    ∃ left right, empty.extend forwardDocument = .ok left ∧
      empty.extend backwardDocument = .ok right ∧
      left.names = ["a.Sorted", "a.Order"] ∧ right.names = ["a.Order", "a.Sorted"] ∧
      right.typeParameters (.plain "a.Sorted") = left.typeParameters (.plain "a.Sorted") ∧
      right.interfaces (.plain "a.Sorted") = left.interfaces (.plain "a.Sorted") := by
  have permuted : forwardDocument.classes.Perm backwardDocument.classes :=
    (List.reverse_perm _).symm
  rcases extend_perm empty permuted with ⟨sameAcceptance, sameFacts⟩
  have isAccepted : (empty.extend forwardDocument).toOption.isSome = true := by decide +kernel
  rcases exists_eq_ok_of_isSome isAccepted with ⟨left, isLeft⟩
  rcases sameAcceptance.1 ⟨left, isLeft⟩ with ⟨right, isRight⟩
  have facts := (sameFacts left right isLeft isRight (.plain "a.Sorted")).2
  exact ⟨left, right, isLeft, isRight, names_of_extend isLeft, names_of_extend isRight,
    facts.typeParameters, facts.interfaces⟩

end Catalog

end NominalTypes
