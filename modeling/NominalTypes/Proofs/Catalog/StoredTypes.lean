import NominalTypes.Proofs.Grammar.RoundTrip

/-!
# Declared supertypes and their text

The supertypes of a class are read from the text of its document and kept as they were read, while
later documents declare more classes. None of these makes the text of such a type mean another class
or takes arguments away, but it may enclose a class that was applied before: then the text means a
type with an owner which the one that is kept does not have. An owner that is kept stays the right
one. So a supertype is what its text means as long as no class in it that is applied without an owner
has an enclosing class.
-/

namespace NominalTypes

namespace Catalog

variable {self : Catalog} {parameters : List TypeVariable}

/-- An owner that is known stays the same when classes are added. -/
theorem IsKeptBy.owner? {later : Catalog} (keeps : self.IsKeptBy later) {raw : ClassName}
    {owner : Ty} (isOwner : self.owner? raw = some owner) : later.owner? raw = some owner := by
  rcases Option.map_eq_some_iff.1 isOwner with ⟨outer, isEnclosing, rfl⟩
  rcases Option.filter_eq_some_iff.1 isEnclosing with ⟨encloses, contained⟩
  exact Option.map_eq_some_iff.2
    ⟨outer, Option.filter_eq_some_iff.2 ⟨encloses, keeps.contains contained⟩, rfl⟩

/-- The type is what some text meant for a class with the type parameters, here or earlier. -/
def WasRead (self : Catalog) (parameters : List TypeVariable) (ty : Ty) : Prop :=
  ∃ (earlier : Catalog) (text : String), earlier.IsKeptBy self ∧
    (earlier.declarationScope parameters).parse defaultDepth text = .ok ty

/-- A type that was read earlier was so for every later catalog. -/
theorem WasRead.kept {later : Catalog} (keeps : self.IsKeptBy later) {ty : Ty}
    (read : self.WasRead parameters ty) : later.WasRead parameters ty := by
  rcases read with ⟨earlier, text, kept, isRead⟩
  exact ⟨earlier, text, kept.trans keeps, isRead⟩

/-- The supertypes of a linked class were read against the skeletons, or go unsaid. -/
theorem Links.wasRead {skeletons : Catalog} {declaration : ClassDeclaration} {info : ClassInfo}
    (links : skeletons.Links declaration info) :
    ∀ supertype ∈ info.superclass.toList ++ info.interfaces,
      supertype = .object ∨ skeletons.WasRead info.typeParameters supertype := by
  intro supertype isSupertype
  refine (links.exists_readSupertype supertype isSupertype).imp_right ?_
  rintro ⟨kind, text, read⟩
  exact ⟨skeletons, text, .refl skeletons, (readSupertype_eq_ok_iff.1 read).1⟩

/-- The supertypes in a loaded catalog were read, or they are the one that goes unsaid. -/
theorem IsLoaded.wasRead (loaded : self.IsLoaded) :
    ∀ info ∈ self.classes, ∀ supertype ∈ info.superclass.toList ++ info.interfaces,
      supertype = .object ∨ self.WasRead info.typeParameters supertype := by
  refine loaded.forall_classes (fun _ _ _ => Links.wasRead) ?_
  intro earlier later info keeps wereRead supertype isSupertype
  exact (wereRead supertype isSupertype).imp_right (WasRead.kept keeps)

/--
The supertype that goes unsaid might have been read from its name, which is looked for among the
declared classes before the imports.
-/
theorem wasRead_object (declared : self.declares ClassName.object.name = true) :
    self.WasRead parameters .object := by
  have contained : (self.declarationScope parameters).catalog.contains
      (.plain (String.intercalate "." ["java", "lang", "Object"])) = true :=
    contains_of_declares declared
  have isYield : (TypeTree.named ⟨"java", ["lang", "Object"], 0, [], 0⟩).yield =
      (Lexeme.significant "java.lang.Object").map Lexeme.symbol := by
    decide +kernel
  refine ⟨self, "java.lang.Object", .refl self, Scope.parse_of_tree isYield ?_⟩
  exact NamedTree.meaning?_eq_some_iff.2 ⟨.ofClass .object, [], .object,
    Scope.resolve_of_contains contained, .nil, rfl, by decide, rfl⟩

/-- In a later catalog the qualified style writes names that stand for the same, without imports. -/
theorem IsKeptBy.writesInto {later : Catalog} (keeps : self.IsKeptBy later)
    (dotted : later.HasDottedNames)
    (free : ∀ parameter ∈ parameters, later.declares parameter.name = false) :
    (self.declarationScope parameters).WritesInto
      (later.declarationScope parameters).withoutImports .qualified where
  keepsArity := fun _ => keeps.arity
  exists_name := by
    have sameParameters : (later.declarationScope parameters).parameters =
        (self.declarationScope parameters).parameters := rfl
    intro first further referent resolved readable
    exact Scope.exists_written_name dotted free sameParameters (fun _ => keeps.contains) resolved
      readable

section

variable {ty : Ty} (read : self.WasRead parameters ty)

include read

/-- The type is read from its text again, with the owners that are known by now. -/
theorem WasRead.parse_text (dotted : self.HasDottedNames)
    (free : ∀ parameter ∈ parameters, self.declares parameter.name = false)
    (concrete : ty.isVariable = false) :
    (self.declarationScope parameters).withoutImports.parse defaultDepth ty.render =
      .ok (self.reown ty) := by
  rcases read with ⟨earlier, text, keeps, isRead⟩
  rw [Ty.render, Ty.renderWith_eq_renderPart concrete]
  exact (keeps.writesInto dotted free).parse_renderPart isRead

/--
What is missing are owners that were not known when the type was read: an owner that was known then
stays known.
-/
theorem WasRead.reown_eq_self_iff :
    self.reown ty = ty ↔ ∀ raw arguments, .parameterized none raw arguments ∈ ty.parts →
      self.enclosing? raw = none := by
  rcases read with ⟨earlier, text, keeps, isRead⟩
  have ownedEarlier := Catalog.reown_eq_self_iff.1 (Scope.isDenotable_of_parse isRead).reown_eq_self
  rw [Catalog.reown_eq_self_iff]
  constructor
  · intro owned raw arguments isPart
    have isOwner : none = self.owner? raw := owned _ isPart
    exact Option.map_eq_none_iff.1 isOwner.symm
  · intro alone part isPart
    cases part with
    | nominal | array | var | wildcard => trivial
    | parameterized owner raw arguments =>
        cases owner with
        | none => exact (Option.map_eq_none_iff.2 (alone raw arguments isPart)).symm
        | some outer =>
            exact (keeps.owner? (ownedEarlier _ isPart).symm).symm

end

/--
The text of a supertype of a class is read, with the type parameters of the class and without
imports, as the supertype with the owners that are known by now. These are its own owners exactly if
none of the classes that it applies without an owner has an enclosing class that is known.
-/
theorem parse_render_supertype (loaded : self.IsLoaded) (dotted : self.HasDottedNames)
    {info : ClassInfo} (isDeclared : info ∈ self.classes)
    (free : ∀ parameter ∈ info.typeParameters, self.declares parameter.name = false)
    {supertype : Ty} (isSupertype : supertype ∈ info.superclass.toList ++ info.interfaces)
    (known : supertype = .object → self.declares ClassName.object.name = true) :
    (self.declarationScope info.typeParameters).withoutImports.parse defaultDepth
        supertype.render = .ok (self.reown supertype) ∧
      ((self.declarationScope info.typeParameters).withoutImports.parse defaultDepth
          supertype.render = .ok supertype ↔
        ∀ raw arguments, .parameterized none raw arguments ∈ supertype.parts →
          self.enclosing? raw = none) := by
  have read : self.WasRead info.typeParameters supertype := by
    rcases loaded.wasRead info isDeclared supertype isSupertype with rfl | read
    · exact wasRead_object (known rfl)
    · exact read
  have linked := loaded.hasLinkedSupertypes info isDeclared supertype isSupertype
  have readAgain := read.parse_text dotted free linked.isVariable_eq_false
  refine ⟨readAgain, ?_⟩
  rw [readAgain, Except.ok.injEq]
  exact read.reown_eq_self_iff

/-- The first document applies a member class of the class that the second one declares. -/
def pathTexts : List String := [
  "[[[\"a.Order\", \"interface\", [\"T\"]], [\"a.Graph$Node\", \"interface\", [\"T\"]]," ++
    " [\"a.Path\", \"interface\", [\"T\"], null, [\"Order<Node<? super T>>\"]]]]",
  "[[[\"a.Graph\"]]]"]

def parameterOf (name : String) : TypeVariable := .unbounded (.type (.plain name)) "T"

def orderOnNodes (owner : Option Ty) : Ty :=
  .parameterized none (.plain "a.Order")
    [.parameterized owner (.plain "a.Graph$Node") [.superOf (.var (parameterOf "a.Path"))]]

/-- The class `a.Path` as it was read, before its nodes had an owner. -/
def pathInfo : ClassInfo :=
  ⟨"a.Path", .interface, [parameterOf "a.Path"], none, [orderOnNodes none]⟩

def paths : Catalog where
  classes := [⟨"a.Order", .interface, [parameterOf "a.Order"], none, []⟩,
    ⟨"a.Graph$Node", .interface, [parameterOf "a.Graph$Node"], none, []⟩, pathInfo,
    ⟨"a.Graph", .concrete, [], some .object, []⟩]
  distinct := by decide

theorem isLoaded_paths : paths.IsLoaded := by
  have same : afterTexts pathTexts = paths := eq_of_classes (by decide +kernel)
  rw [← same]
  exact isLoaded_afterTexts pathTexts

theorem paths_hasDottedNames : paths.HasDottedNames := by
  apply hasDottedNames_of_words
    [("a", ["Order"]), ("a", ["Graph$Node"]), ("a", ["Path"]), ("a", ["Graph"])]
  · decide
  · decide

theorem pathInfo_mem_paths :
    pathInfo ∈ paths.classes ∧
      (∀ parameter ∈ pathInfo.typeParameters, paths.declares parameter.name = false) ∧
      orderOnNodes none ∈ pathInfo.superclass.toList ++ pathInfo.interfaces := by
  decide

/-- What is read from the text of the supertype is not the supertype. -/
theorem parse_render_path_ne :
    paths.IsLoaded ∧ paths.HasDottedNames ∧ pathInfo ∈ paths.classes ∧
      (∀ parameter ∈ pathInfo.typeParameters, paths.declares parameter.name = false) ∧
      orderOnNodes none ∈ pathInfo.superclass.toList ++ pathInfo.interfaces ∧
      orderOnNodes none ≠ .object ∧
      (paths.declarationScope pathInfo.typeParameters).withoutImports.parse defaultDepth
        (orderOnNodes none).render ≠ .ok (orderOnNodes none) := by
  rcases pathInfo_mem_paths with ⟨isDeclared, free, isSupertype⟩
  refine ⟨isLoaded_paths, paths_hasDottedNames, isDeclared, free, isSupertype, by decide, ?_⟩
  decide +kernel

/-- What is read has the owner that was declared later. -/
theorem parse_render_supertype_path :
    (paths.declarationScope pathInfo.typeParameters).withoutImports.parse defaultDepth
        "a.Order<a.Graph$Node<? super T>>" =
      .ok (orderOnNodes (some (.nominal (.plain "a.Graph")))) ∧
    ¬∀ raw arguments, .parameterized none raw arguments ∈ (orderOnNodes none).parts →
      paths.enclosing? raw = none := by
  rcases pathInfo_mem_paths with ⟨isDeclared, free, isSupertype⟩
  have readAgain := parse_render_supertype isLoaded_paths paths_hasDottedNames isDeclared free
    isSupertype (fun isObject => by cases isObject)
  have isText : (orderOnNodes none).render = "a.Order<a.Graph$Node<? super T>>" := by
    decide +kernel
  have reowned : paths.reown (orderOnNodes none) =
      orderOnNodes (some (.nominal (.plain "a.Graph"))) := by
    decide
  rw [isText, reowned] at readAgain
  rcases readAgain with ⟨isRead, isReadAs⟩
  refine ⟨isRead, ?_⟩
  rw [← isReadAs, isRead]
  decide

end Catalog

end NominalTypes
