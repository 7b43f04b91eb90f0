import NominalTypes.Proofs.Grammar.Denotable
import NominalTypes.Proofs.Grammar.RoundTrip
import NominalTypes.Proofs.Grammar.SimpleNames

/-!
# Simple printing is read back

A class is written by its simple name if the class is imported and no other import has the simple
name, and else by its binary name. What is written stands for the class again: the simple name by
the import, a dotted name since it is tried as a binary name first. The binary name of a class in
the default package may be the simple name of other imports, but then no text names the class.
-/

namespace NominalTypes

namespace Ty

variable (style : NameStyle) {name : String}

theorem renderPart_keyword (primitive : Primitive) :
    (Ty.nominal (.ofPrimitive primitive)).renderPart style = primitive.keyword := by
  have isPrimitive : (ClassName.ofPrimitive primitive).element.asPrimitive? = some primitive :=
    Primitive.ofKeyword?_keyword primitive
  have noSuffix : arraySuffix (ClassName.ofPrimitive primitive).dims = "" := rfl
  simp [renderPart, NameStyle.renderClass, isPrimitive, noSuffix]

theorem renderPart_noKeyword (noKeyword : Primitive.ofKeyword? name = none) :
    (Ty.nominal (.plain name)).renderPart style = style (.plain name) := by
  have notPrimitive : (ClassName.plain name).element.asPrimitive? = none := noKeyword
  have noSuffix : arraySuffix (ClassName.plain name).dims = "" := rfl
  simp only [renderPart, NameStyle.renderClass, notPrimitive, noSuffix, String.append_empty]
  rfl

end Ty

namespace Scope

variable {scope : Scope} {name : String}

theorem candidates_eq_nil (divided : simpleNameOf name ≠ name) : scope.candidates name = [] := by
  apply List.eq_nil_iff_forall_not_mem.2
  intro other isCandidate
  apply divided
  rw [simpleNameOf_eq_self_iff, ← simpleNameOf_of_mem_candidates isCandidate]
  exact separatesSegments_simpleNameOf other

section

variable (noVariables : scope.parameters = [])

include noVariables

/--
A declared class is found by a word if it is the only import that the word can mean, or if no import
is meant and the word is its name.
-/
theorem resolveSimple_eq_known {word : String} (noKeyword : Primitive.ofKeyword? word = none)
    (declared : scope.catalog.declares name = true)
    (candidates : scope.candidates word = [name] ∨ word = name ∧ scope.candidates word = []) :
    scope.resolve [word] = .ok (.ofClass (.plain name)) := by
  have isKnown : scope.known name = .ok (.ofClass (.plain name)) :=
    known_eq_ok_iff.2 ⟨Catalog.contains_of_declares declared, rfl⟩
  simp only [resolve, resolveSimple, noKeyword, noVariables, List.find?_nil]
  rcases candidates with single | ⟨rfl, none⟩
  · simp only [single, isKnown]
  · simp only [none, isKnown]

/--
A class that some text names is named by its binary name. A name that a dollar sign divides is no
import's simple name.
-/
theorem resolve_binaryName {segments : List String} {head : String} {others : List String}
    (resolved : scope.resolve segments =
      .ok (.ofClass (.plain (String.intercalate "." (head :: others)))))
    (declared : scope.catalog.declares (String.intercalate "." (head :: others)) = true)
    (noKeyword : Primitive.ofKeyword? (String.intercalate "." (head :: others)) = none) :
    scope.resolve (head :: others) =
      .ok (.ofClass (.plain (String.intercalate "." (head :: others)))) := by
  cases others with
  | cons second others => exact resolve_of_contains (Catalog.contains_of_declares declared)
  | nil =>
      rw [String.intercalate_singleton] at resolved declared noKeyword ⊢
      apply resolveSimple_eq_known noVariables noKeyword declared
      by_cases simple : simpleNameOf head = head
      · rcases candidates_of_resolve resolved simple noKeyword with none | single
        · exact Or.inr ⟨rfl, none⟩
        · exact Or.inl single
      · exact Or.inr ⟨rfl, candidates_eq_nil simple⟩

variable (segmented : scope.catalog.HasSegmentedNames) {imports : Imports}
  (importing : scope.imports = some imports)

include segmented importing

/-- The simple style writes a class by a name that stands for it again. -/
theorem exists_simple_name {segments : List String}
    (resolved : scope.resolve segments = .ok (.ofClass (.plain name)))
    (declared : scope.catalog.declares name = true) :
    ∃ head others, scope.resolve (head :: others) = .ok (.ofClass (.plain name)) ∧
      Lexeme.IsWriting (Symbol.name head others) (imports.simpleStyle (.plain name)).toList := by
  have isSegmented := segmented name (of_decide_eq_true declared)
  cases unambiguous : imports.isUnambiguous (.plain name) with
  | true =>
      have isSegment := isSegmented.isNameSegment
      have single : scope.candidates (simpleNameOf name) = [name] := by
        rw [candidates, importing]
        exact Imports.isUnambiguous_plain_iff.1 unambiguous
      have text : imports.simpleStyle (.plain name) = simpleNameOf name := by
        rw [Imports.simpleStyle, if_pos unambiguous]
        rfl
      refine ⟨simpleNameOf name, [], ?_, ?_⟩
      · exact resolveSimple_eq_known noVariables isSegment.noKeyword declared (Or.inl single)
      · rw [text, Symbol.name_nil]
        exact isSegment.identifier.isWriting
  | false =>
      have text : imports.simpleStyle (.plain name) = name := by
        rw [Imports.simpleStyle, unambiguous, if_neg Bool.false_ne_true]
        rfl
      have noKeyword := isSegmented.noKeyword
      rcases isSegmented with ⟨head, others, rfl, words⟩
      refine ⟨head, others, resolve_binaryName noVariables resolved declared noKeyword, ?_⟩
      rw [text]
      apply Lexeme.isWriting_name
      intro word isWord
      exact (words word isWord).isWriting

/-- The simple style writes names that stand for the same with the same imports. -/
theorem writesNames_simple : scope.WritesNames scope imports.simpleStyle where
  sameCatalog := rfl
  exists_name := by
    intro first further referent resolved _
    cases referent with
    | ofVariable parameter =>
        have inScope : parameter ∈ scope.parameters := resolve_isKnownIn resolved
        rw [noVariables] at inScope
        cases inScope
    | ofClass named =>
        rcases resolve_isKnownIn resolved with ⟨contained, isPlain⟩
        rcases named with ⟨name, dims, fits⟩
        cases isPlain
        rcases Catalog.contains_plain contained with ⟨primitive, isPrimitive⟩ | declared
        · have isKeyword := Primitive.keyword_of_ofKeyword? isPrimitive
          subst isKeyword
          refine ⟨primitive.keyword, [], ?_, ?_⟩
          · simp only [resolve, resolveSimple, isPrimitive]
            rfl
          · have text : (Referent.ofClass ⟨primitive.keyword, 0, fits⟩).toTy.renderPart
                imports.simpleStyle = primitive.keyword :=
              Ty.renderPart_keyword imports.simpleStyle primitive
            rw [text, Symbol.name_nil]
            exact Lexeme.isWriting_keyword primitive
        · have isSegmented := segmented name (of_decide_eq_true declared)
          have text : (Referent.ofClass ⟨name, 0, fits⟩).toTy.renderPart imports.simpleStyle =
              imports.simpleStyle (.plain name) :=
            Ty.renderPart_noKeyword imports.simpleStyle isSegmented.noKeyword
          rcases exists_simple_name noVariables segmented importing resolved declared with
            ⟨head, others, resolvedAgain, writing⟩
          exact ⟨head, others, resolvedAgain, by rwa [text]⟩

end

/-- Without type variables in scope no variable is read. -/
theorem isVariable_eq_false_of_parse (noVariables : scope.parameters = []) {depth : Nat}
    {text : String} {ty : Ty} (read : scope.parse depth text = .ok ty) : ty.isVariable = false := by
  cases ty with
  | var parameter =>
      have inScope := (Scope.isDenotable_of_parse read).mem_parameters parameter
        (List.mem_singleton.2 rfl)
      rw [noVariables] at inScope
      cases inScope
  | nominal | array | parameterized | wildcard => rfl

/--
The text of a type with simple names, where these stand for its classes, is read back as the type
with the same imports and the same number of nesting levels, if there are no type variables.
-/
theorem parse_renderWith_simpleStyle {scope : Scope} {imports : Imports}
    (importing : scope.imports = some imports) (noVariables : scope.parameters = [])
    (segmented : scope.catalog.HasSegmentedNames) {depth : Nat} {text : String} {ty : Ty}
    (read : scope.parse depth text = .ok ty) :
    scope.parse depth (ty.renderWith imports.simpleStyle) = .ok ty := by
  rw [Ty.renderWith_eq_renderPart (isVariable_eq_false_of_parse noVariables read)]
  exact (writesNames_simple noVariables segmented importing).parse_renderPart read

/-- Two classes of one simple name, one of them a member of a class, among other imports. -/
def nodeImports : Imports := ⟨["b.Node", "a.Graph", "a.Graph$Node"], by decide⟩

/-- The scope of these classes. -/
def ofNodes : Scope where
  catalog := ⟨[⟨"a.Graph", .concrete, [graphVariable], none, []⟩,
    ⟨"a.Graph$Node", .concrete, [.unbounded (.type (.plain "a.Graph$Node")) "T"], none, []⟩,
    ⟨"b.Node", .concrete, [], none, []⟩], by decide⟩
  imports := some nodeImports

theorem ofNodes_hasSegmentedNames : ofNodes.catalog.HasSegmentedNames := by
  have checked : ∀ segment ∈ ["a", "b", "Graph", "Node"],
      Lexeme.IsIdentifier segment ∧ '$' ∉ segment.toList ∧ Primitive.ofKeyword? segment = none := by
    decide
  have segments : ∀ segment ∈ ["a", "b", "Graph", "Node"], IsNameSegment segment := by
    intro segment member
    rcases checked segment member with ⟨identifier, undivided, noKeyword⟩
    exact ⟨identifier, undivided, noKeyword⟩
  have nested : ∀ segment ∈ ["a", "b", "Graph", "Node"], IsNestedName segment := by
    intro segment member
    exact ⟨segment, [], String.intercalate_singleton.symm,
      List.forall_mem_singleton.2 (segments segment member)⟩
  have member : IsNestedName "Graph$Node" := by
    refine ⟨"Graph", ["Node"], by decide, ?_⟩
    intro segment isSegment
    exact segments segment (by simp_all)
  have names : ofNodes.catalog.names = ["a.Graph", "a.Graph$Node", "b.Node"] := by decide
  rw [Catalog.HasSegmentedNames, names]
  simp only [List.forall_mem_cons, List.not_mem_nil, false_implies, implies_true, and_true]
  refine ⟨⟨"a", ["Graph"], by decide, ?_⟩, ⟨"a", ["Graph$Node"], by decide, ?_⟩,
    ⟨"b", ["Node"], by decide, ?_⟩⟩
  · simp [nested]
  · simp [nested, member]
  · simp [nested]

/-- Only the outer class is written by its simple name, since the others have the same one. -/
theorem parse_renderWith_nodes :
    ofNodes.parse 4 "Graph<a.Graph.Node<? super b.Node>[]>" =
        .ok (.parameterized none (.plain "a.Graph")
          [.array (nodeOf (.superOf (.nominal (.plain "b.Node"))))]) ∧
      ofNodes.parse 4 "Graph<a.Graph$Node<? super b.Node>[]>" =
        .ok (.parameterized none (.plain "a.Graph")
          [.array (nodeOf (.superOf (.nominal (.plain "b.Node"))))]) := by
  have read : ofNodes.parse 4 "Graph<a.Graph.Node<? super b.Node>[]>" =
      .ok (.parameterized none (.plain "a.Graph")
        [.array (nodeOf (.superOf (.nominal (.plain "b.Node"))))]) := by
    decide +kernel
  refine ⟨read, ?_⟩
  have importing : ofNodes.imports = some nodeImports := rfl
  have noVariables : ofNodes.parameters = [] := rfl
  refine Eq.trans ?_
    (parse_renderWith_simpleStyle importing noVariables ofNodes_hasSegmentedNames read)
  exact congrArg _ (by decide +kernel)

end Scope

end NominalTypes
