import NominalTypes.Proofs.Grammar.QualifiedNames
import NominalTypes.Proofs.Grammar.SimpleRoundTrip

/-!
# Unqualified printing under sufficient imports

Without packages and outer classes the text of a type says less than the type, but where each class
that is written is the only import of its simple name, this is the text with simple names. It is
read back as the type under these imports, whatever imports the type itself was read with: its
qualified text is read without imports, and then with these, since no name of it stands for
something else.
-/

namespace NominalTypes

namespace Ty

/-- Where the bounds with their default are the default ones, no other bound is given. -/
theorem isDefaultBounds_boundsOrObject {bounds : List Ty}
    (isDefault : isDefaultBounds (boundsOrObject bounds) = true) : ∀ bound ∈ bounds, bound = object := by
  cases bounds with
  | nil => simp
  | cons first rest =>
      have only : first :: rest = [object] := isDefaultBounds_iff.1 isDefault
      rw [only]
      simp

theorem mem_styledClasses_object {named : ClassName} (isStyled : named ∈ object.styledClasses) :
    named = .object :=
  List.mem_singleton.1 isStyled

/-- The default bound is not written, and the others are. -/
theorem forall_styledAll_of_wildcardOf {kept : ClassName → Prop} (keptObject : kept .object)
    {upper lower : List Ty} (keptClasses : ∀ named ∈ (wildcardOf upper lower).styledClasses, kept named) :
    (∀ named ∈ styledAll upper, kept named) ∧ ∀ named ∈ styledAll lower, kept named := by
  rw [wildcardOf, styledClasses, List.forall_mem_append] at keptClasses
  refine ⟨?_, keptClasses.2⟩
  intro named isStyled
  cases isDefault : isDefaultBounds (boundsOrObject upper) with
  | true =>
      rcases mem_styledAll.1 isStyled with ⟨bound, isBound, isStyled⟩
      rw [isDefaultBounds_boundsOrObject isDefault bound isBound] at isStyled
      rw [mem_styledClasses_object isStyled]
      exact keptObject
  | false =>
      have written := keptClasses.1
      rw [isDefault, if_neg Bool.false_ne_true] at written
      cases upper with
      | nil => cases isStyled
      | cons first rest => exact written named isStyled

end Ty

/-- The classes written in an applied class are this class and those in its arguments. -/
theorem Referent.styledClasses_applied? {catalog : Catalog} {named : ClassName} {types : List Ty}
    {element : Ty} (isElement : (Referent.ofClass named).applied? catalog types = some element) :
    element.styledClasses = named.styled ++ Ty.styledAll types := by
  cases types with
  | nil =>
      cases isElement
      exact (List.append_nil _).symm
  | cons first rest =>
      simp only [Referent.applied?, Option.ite_none_right_eq_some, Option.some.injEq] at isElement
      rcases isElement with ⟨-, rfl⟩
      have unwritten : Ty.styledOwner ((catalog.enclosing? named).map .nominal) = none := by
        cases catalog.enclosing? named <;> rfl
      rw [Ty.styledClasses, unwritten, Option.getD_none]

section

variable {scope other : Scope}

theorem areMeanings_of_styledAll {kept : ClassName → Prop} {tree : Type}
    {means : tree → Ty → Prop} {trees : List tree} {types : List Ty}
    (areKept : List.Forall₂
      (fun tree ty => (∀ named ∈ ty.styledClasses, kept named) → means tree ty) trees types)
    (keptClasses : ∀ named ∈ Ty.styledAll types, kept named) : List.Forall₂ means trees types := by
  induction areKept with
  | nil => exact .nil
  | cons isKept _ ih =>
      rw [Ty.styledAll, List.forall_mem_append] at keptClasses
      exact .cons (isKept keptClasses.1) (ih keptClasses.2)

/--
A derivation means the same where the classes that are written in its type keep their names, and
the primitive types and the default bound as well.
-/
theorem TypeTree.meaning?_of_styledClasses (kept : ClassName → Prop)
    (sameCatalog : other.catalog = scope.catalog) (noVariables : scope.parameters = [])
    (keeps : ∀ segments named, scope.resolve segments = .ok (.ofClass named) → kept named →
      other.resolve segments = .ok (.ofClass named))
    (keptPrimitive : ∀ named : ClassName, named.isPrimitive = true → kept named)
    (keptObject : kept .object) {levels : Nat} {tree : TypeTree} {ty : Ty}
    (isMeaning : tree.meaning? scope levels = some ty) :
    (∀ named ∈ ty.styledClasses, kept named) → tree.meaning? other levels = some ty := by
  refine @TypeTree.meaning?_induct scope levels
    (fun levels tree ty =>
      (∀ named ∈ ty.styledClasses, kept named) → tree.meaning? other levels = some ty)
    (fun levels tree ty =>
      (∀ named ∈ ty.styledClasses, kept named) → tree.boundMeaning? other levels = some ty)
    (fun levels tree ty =>
      (∀ named ∈ ty.styledClasses, kept named) → tree.meaning? other levels = some ty)
    ?named (fun isBound => isBound) (fun isNamed => isNamed) ?wildcard tree ty isMeaning
  case named =>
    intro levels first further inner arguments outer referent types element resolved areKept
      isElement fits keptClasses
    have known := Scope.resolve_isKnownIn resolved
    cases referent with
    | ofVariable parameter =>
        rw [Referent.IsKnownIn, noVariables] at known
        cases known
    | ofClass named =>
        rw [Ty.styledClasses_arrayOfTimes, Referent.styledClasses_applied? isElement,
          List.forall_mem_append] at keptClasses
        have isKept : kept named := by
          cases isPrimitive : named.isPrimitive with
          | true => exact keptPrimitive named isPrimitive
          | false =>
              apply keptClasses.1
              simp [ClassName.styled, ClassName.element_of_dims known.2, isPrimitive]
        have areMeanings := areMeanings_of_styledAll areKept keptClasses.2
        rw [← sameCatalog] at isElement
        exact NamedTree.meaning?_eq_some_iff.2
          ⟨_, types, element, keeps _ named resolved isKept, areMeanings, isElement, fits, rfl⟩
  case wildcard =>
    intro levels upper lower uppers lowers upperKept lowerKept keptClasses
    rcases Ty.forall_styledAll_of_wildcardOf keptObject keptClasses with ⟨keptUpper, keptLower⟩
    exact meaning?_wildcard_eq_some_iff.2
      ⟨uppers, lowers, areMeanings_of_styledAll upperKept keptUpper,
        areMeanings_of_styledAll lowerKept keptLower, rfl⟩

end

/-- Names that are made of segments are made of identifiers and dots. -/
theorem Catalog.HasSegmentedNames.hasDottedNames {catalog : Catalog}
    (segmented : catalog.HasSegmentedNames) : catalog.HasDottedNames := by
  intro name isName
  rcases segmented name isName with ⟨first, further, isSegmented, words⟩
  exact ⟨first, further, isSegmented, fun word isWord => (words word isWord).hasShape.isIdentifier⟩

/-- No import takes away the name of the class, by which it is read without imports. -/
inductive Imports.KeepsClass (imports : Imports) : ClassName → Prop where
  | primitive {named : ClassName} (isPrimitive : named.isPrimitive = true) : KeepsClass imports named
  | object : KeepsClass imports .object
  | unambiguous {named : ClassName} (isUnambiguous : imports.isUnambiguous named = true) :
      KeepsClass imports named

namespace Scope

variable {catalog : Catalog} {imports : Imports}

/--
A class whose name is kept is found under the imports by the name that it is found by without them.
-/
theorem resolve_of_keepsClass {segments : List String} {named : ClassName}
    (resolved : ({ catalog } : Scope).resolve segments = .ok (.ofClass named))
    (kept : imports.KeepsClass named) :
    ({ catalog, imports := some imports } : Scope).resolve segments = .ok (.ofClass named) := by
  rcases segments with _ | ⟨word, _ | ⟨second, others⟩⟩
  · simp [resolve, resolveDotted, spellings, importedSpelling] at resolved
  · cases isKeyword : Primitive.ofKeyword? word with
    | some primitive =>
        rw [← Primitive.keyword_of_ofKeyword? isKeyword, resolve_keyword] at resolved ⊢
        exact resolved
    | none =>
        have isKnown : ({ catalog } : Scope).known word = .ok (.ofClass named) := by
          simpa only [resolve, resolveSimple, isKeyword, List.find?_nil, candidates] using resolved
        rcases known_eq_ok_iff.1 isKnown with ⟨contained, ⟨⟩⟩
        have declared : catalog.declares word = true :=
          Catalog.declares_of_contains contained isKeyword
        apply resolveSimple_eq_known rfl isKeyword declared
        by_cases simple : simpleNameOf word = word
        · cases kept with
          | primitive isPrimitive =>
              have isSome : (Primitive.ofKeyword? word).isSome = true := isPrimitive
              rw [isKeyword] at isSome
              cases isSome
          | object => exact absurd simple (by decide)
          | unambiguous isUnambiguous =>
              rw [Imports.isUnambiguous_plain_iff, simple] at isUnambiguous
              exact .inl isUnambiguous
        · exact .inr ⟨rfl, candidates_eq_nil simple⟩
  · have noImports : ({ catalog } : Scope).imports = none := rfl
    refine resolve_of_withoutImports noImports ?_ (by simp) resolved
    rfl

/-- The qualified text of a type is read back under imports that keep the classes written in it. -/
theorem parse_renderPart_qualified (segmented : catalog.HasSegmentedNames)
    {source : Option Imports} {depth : Nat} {text : String} {ty : Ty}
    (read : ({ catalog, imports := source } : Scope).parse depth text = .ok ty)
    (unambiguous : ∀ named ∈ ty.styledClasses, imports.isUnambiguous named = true) :
    ({ catalog, imports := some imports } : Scope).parse depth (ty.renderPart .qualified) =
      .ok ty := by
  have writes := @writesNames_qualified { catalog, imports := source } segmented.hasDottedNames
    (List.forall_mem_nil _)
  rcases exists_tree_of_parse (writes.parse_renderPart read) with ⟨tree, isYield, isMeaning⟩
  have isMeaning : tree.meaning? { catalog } depth = some ty := isMeaning
  apply parse_of_tree isYield
  refine TypeTree.meaning?_of_styledClasses imports.KeepsClass ?_ ?_ ?_ ?_ ?_ isMeaning ?_
  · rfl
  · rfl
  · exact fun segments named resolved kept => resolve_of_keepsClass resolved kept
  · exact fun named isPrimitive => .primitive isPrimitive
  · exact .object
  · exact fun named isStyled => .unambiguous (unambiguous named isStyled)

/--
Where each class that is written is the only import of its simple name, the unqualified text of a
type is its text with simple names and is read back as the type, without variables and with the
same number of nesting levels.
-/
theorem parse_renderWith_unqualified {catalog : Catalog} (segmented : catalog.HasSegmentedNames)
    {source : Option Imports} {imports : Imports} {depth : Nat} {text : String} {ty : Ty}
    (read : ({ catalog, imports := source } : Scope).parse depth text = .ok ty)
    (unambiguous : ∀ named ∈ ty.styledClasses, imports.isUnambiguous named = true) :
    ty.renderWith .unqualified = ty.renderWith imports.simpleStyle ∧
      ({ catalog, imports := some imports } : Scope).parse depth (ty.renderWith .unqualified) =
        .ok ty := by
  have concrete : ty.isVariable = false := isVariable_eq_false_of_parse rfl read
  have sameText : ty.renderPart .unqualified = ty.renderPart imports.simpleStyle := by
    apply Ty.renderPart_congr
    intro named isStyled
    rw [Imports.simpleStyle, if_pos (unambiguous named isStyled), NameStyle.unqualified]
  rw [Ty.renderWith_eq_renderPart concrete, Ty.renderWith_eq_renderPart concrete]
  refine ⟨sameText, ?_⟩
  rw [sameText]
  have readAgain := parse_renderPart_qualified segmented read unambiguous
  have writes := @writesNames_simple { catalog, imports := some imports } rfl segmented imports rfl
  exact writes.parse_renderPart readAgain

/-- The generic class and its member class are the only imports of their simple names. -/
def graphImports : Imports := ⟨["a.Graph$Node", "a.Graph", "b.Edge"], by decide⟩

/-- The generic class over a wildcard with an array of its member class as bound. -/
def graphOfNodes : Ty :=
  .parameterized none (.plain "a.Graph")
    [.wildcard [.array (nodeOf (.nominal ⟨"int", 1, by decide⟩))] []]

theorem parse_renderWith_unqualified_graph :
    ({ catalog := ofNodes.catalog, imports := some nodeImports } : Scope).parse 4
        "Graph<? extends a.Graph.Node<int[]>[]>" = .ok graphOfNodes ∧
      (∀ named ∈ graphOfNodes.styledClasses, graphImports.isUnambiguous named = true) ∧
      graphOfNodes.renderWith .unqualified = "Graph<? extends Node<int[]>[]>" ∧
      graphOfNodes.renderWith graphImports.simpleStyle = "Graph<? extends Node<int[]>[]>" ∧
      ({ catalog := ofNodes.catalog, imports := some graphImports } : Scope).parse 4
        "Graph<? extends Node<int[]>[]>" = .ok graphOfNodes := by
  have read : ({ catalog := ofNodes.catalog, imports := some nodeImports } : Scope).parse 4
      "Graph<? extends a.Graph.Node<int[]>[]>" = .ok graphOfNodes := by
    decide +kernel
  have unambiguous : ∀ named ∈ graphOfNodes.styledClasses,
      graphImports.isUnambiguous named = true := by
    decide
  have isText : graphOfNodes.renderWith .unqualified = "Graph<? extends Node<int[]>[]>" := by
    decide
  rcases parse_renderWith_unqualified ofNodes_hasSegmentedNames read unambiguous with
    ⟨sameText, readAgain⟩
  rw [isText] at sameText readAgain
  exact ⟨read, unambiguous, isText, sameText.symm, readAgain⟩

end Scope

end NominalTypes
