import NominalTypes.Proofs.Grammar.Printed

/-!
# Qualified printing is read back

A name that was resolved is written as the binary name of its class, a keyword or the name of a type
variable. Without imports it stands for the same, if no variable has the name of a class. So the
qualified text of a type is read back as the type.
-/

namespace NominalTypes

/-- The name is made of identifiers with dots between them. -/
def IsDottedName (name : String) : Prop :=
  ∃ first further, name = String.intercalate "." (first :: further) ∧
    ∀ segment ∈ first :: further, Lexeme.IsIdentifier segment

/-- The names of the declared classes are made of identifiers with dots between them. -/
def Catalog.HasDottedNames (self : Catalog) : Prop := ∀ name ∈ self.names, IsDottedName name

/--
Names that are given with their segments are made of identifiers and dots if the segments are
identifiers.
-/
theorem Catalog.hasDottedNames_of_words {self : Catalog} (words : List (String × List String))
    (areNames : self.names = words.map fun word => String.intercalate "." (word.1 :: word.2))
    (identifiers : ∀ word ∈ words, ∀ segment ∈ word.1 :: word.2, Lexeme.IsIdentifier segment) :
    self.HasDottedNames := by
  rw [HasDottedNames, areNames]
  refine List.forall_mem_map.2 ?_
  intro word isWord
  exact ⟨word.1, word.2, rfl, identifiers word isWord⟩

theorem Ty.renderPart_plain (name : String) :
    (Ty.nominal (.plain name)).renderPart .qualified = name := by
  simp [renderPart, NameStyle.renderClass_qualified, ClassName.plain, arraySuffix]

/-- A class that is known by a name is written by its keyword or by identifiers between dots. -/
theorem Scope.exists_segments {scope : Scope} (dotted : scope.catalog.HasDottedNames)
    {name : String} (contained : scope.catalog.contains (.plain name) = true) :
    ∃ head segments, name = String.intercalate "." (head :: segments) ∧
      ∀ segment ∈ head :: segments,
        Lexeme.IsWriting [⟨.identifier, segment⟩] segment.toList := by
  rcases Catalog.contains_plain contained with ⟨primitive, isPrimitive⟩ | declared
  · refine ⟨name, [], String.intercalate_singleton.symm, ?_⟩
    rw [← Primitive.keyword_of_ofKeyword? isPrimitive]
    simpa using Lexeme.isWriting_keyword primitive
  · have isDeclared : name ∈ scope.catalog.names := of_decide_eq_true declared
    rcases dotted name isDeclared with ⟨head, segments, isName, identifiers⟩
    refine ⟨head, segments, isName, ?_⟩
    intro segment member
    exact (identifiers segment member).isWriting

section

variable {scope target : Scope} (dotted : target.catalog.HasDottedNames)
  (free : ∀ parameter ∈ target.parameters, target.catalog.declares parameter.name = false)

include dotted free

/-- A name is written in a way that is read in any scope which has its variables and its class. -/
theorem Scope.exists_written_name (sameParameters : target.parameters = scope.parameters)
    (contains : ∀ named, scope.catalog.contains named = true →
      target.catalog.contains named = true)
    {first : String} {further : List String} {referent : Referent}
    (resolved : scope.resolve (first :: further) = .ok referent)
    (readable : Symbol.AreReadable (Symbol.name first further)) :
    ∃ head segments, target.withoutImports.resolve (head :: segments) = .ok referent ∧
      Lexeme.IsWriting (Symbol.name head segments)
        (referent.toTy.renderPart .qualified).toList := by
  cases referent with
  | ofVariable parameter =>
      rcases resolve_eq_ofVariable resolved with ⟨rfl, rfl, resolvedAnywhere⟩
      refine ⟨parameter.name, [], resolvedAnywhere target.withoutImports sameParameters, ?_⟩
      exact readable ⟨.identifier, parameter.name⟩ List.mem_cons_self rfl
  | ofClass named =>
      rcases resolve_isKnownIn resolved with ⟨contained, isPlain⟩
      rcases named with ⟨name, dims, fits⟩
      cases isPlain
      have containedToo := contains _ contained
      rcases exists_segments dotted containedToo with ⟨head, segments, rfl, writings⟩
      refine ⟨head, segments, resolve_withoutImports containedToo free, ?_⟩
      have written := Lexeme.isWriting_name writings
      rwa [← Ty.renderPart_plain (String.intercalate "." (head :: segments))] at written

end

section

variable {scope : Scope} (dotted : scope.catalog.HasDottedNames)
  (free : ∀ parameter ∈ scope.parameters, scope.catalog.declares parameter.name = false)

include dotted free

/-- The qualified style writes names that stand for the same without imports. -/
theorem Scope.writesNames_qualified : scope.WritesNames scope.withoutImports .qualified where
  sameCatalog := rfl
  exists_name := exists_written_name dotted free rfl fun _ => id

/-- What is read with some nesting levels is written with the same number of levels. -/
theorem TypeTree.hasWritings (levels : Nat) :
    HasWritings .qualified TypeTree.yield (fun tree ty => tree.meaning? scope levels = some ty)
      (fun tree ty => tree.meaning? scope.withoutImports levels = some ty) :=
  (Scope.writesNames_qualified dotted free).hasWritings levels

end

namespace Scope

/--
The qualified text of a type that was read is read back as the type, without imports, with the same
variables and the same number of nesting levels.
-/
theorem parse_render {scope : Scope} {depth : Nat} {text : String} {ty : Ty}
    (dotted : scope.catalog.HasDottedNames)
    (free : ∀ parameter ∈ scope.parameters, scope.catalog.declares parameter.name = false)
    (read : scope.parse depth text = .ok ty)
    (printable : ∀ parameter, ty = .var parameter → parameter.hasDefaultBounds = true) :
    scope.withoutImports.parse depth ty.render = .ok ty := by
  rcases exists_tree_of_parse read with ⟨tree, isYield, isMeaning⟩
  have readable : Symbol.AreReadable tree.yield := by
    rw [isYield]
    exact Symbol.areReadable_significant text
  rcases TypeTree.hasWritings dotted free depth tree ty readable isMeaning with
      ⟨written, isWritten, writing⟩
  have isText : ty.render = ty.renderPart .qualified := by
    cases ty with
    | var parameter =>
        simp [Ty.render, Ty.renderWith, Ty.renderPart, printable parameter rfl]
    | nominal | array | parameterized | wildcard => exact Ty.renderWith_eq_renderPart rfl
  apply parse_of_tree _ isWritten
  rw [isText, Lexeme.significant_map_symbol]
  exact writing.symbols_eq.symm

/-- The type variable of the class `a.Graph`. -/
def graphVariable : TypeVariable := .unbounded (.type (.plain "a.Graph")) "T"

/-- The scope of a generic class with a generic member class, which is imported. -/
def ofGraph : Scope where
  catalog := ⟨[⟨"a.Graph", .concrete, [graphVariable], none, []⟩,
    ⟨"a.Graph$Node", .concrete, [.unbounded (.type (.plain "a.Graph$Node")) "T"], none, []⟩],
    by decide⟩
  imports := some ⟨["a.Graph$Node"], by decide⟩
  parameters := [graphVariable]

/-- The member class applied to one argument, as it is read. -/
def nodeOf (argument : Ty) : Ty :=
  .parameterized (some (.nominal (.plain "a.Graph"))) (.plain "a.Graph$Node") [argument]

theorem ofGraph_hasDottedNames : ofGraph.catalog.HasDottedNames := by
  apply Catalog.hasDottedNames_of_words [("a", ["Graph"]), ("a", ["Graph$Node"])]
  · decide
  · decide

theorem parse_render_node :
    ofGraph.parse 4 "Node[]<? extends Node<T[]> super T>" =
        .ok (.array (nodeOf (.wildcard [nodeOf (.array (.var graphVariable))]
          [.var graphVariable]))) ∧
      ofGraph.withoutImports.parse 4 "a.Graph$Node<? extends a.Graph$Node<T[]> super T>[]" =
        .ok (.array (nodeOf (.wildcard [nodeOf (.array (.var graphVariable))]
          [.var graphVariable]))) := by
  have read : ofGraph.parse 4 "Node[]<? extends Node<T[]> super T>" =
      .ok (.array (nodeOf (.wildcard [nodeOf (.array (.var graphVariable))]
        [.var graphVariable]))) := by
    decide +kernel
  have free : ∀ parameter ∈ ofGraph.parameters,
      ofGraph.catalog.declares parameter.name = false := by
    decide
  refine ⟨read, ?_⟩
  refine Eq.trans ?_ (parse_render ofGraph_hasDottedNames free read ?_)
  · exact congrArg _ (by decide +kernel)
  · intro parameter isVariable
    cases isVariable

end Scope

end NominalTypes
