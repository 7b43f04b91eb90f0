import NominalTypes.Grammar.QualifiedName
import NominalTypes.Proofs.Grammar.Completeness
import NominalTypes.Proofs.Grammar.RoundTrip

/-!
# Qualified names bypass imports and variables

What a derivation means depends on what the names in its text stand for, and on nothing else of a
scope. A name with several segments is tried as a known class in every way before imports are looked
at, and a primitive's keyword before anything else. So what text with such names denotes without
imports and variables, it denotes with any.
-/

namespace NominalTypes

namespace Symbol

/-- The symbols begin neither with a segment of a name nor with what leads to one. -/
def EndsName (symbols : List Symbol) : Prop :=
  ∀ symbol ∈ symbols.head?, symbol.kind ≠ .dot ∧ symbol.kind ≠ .identifier

theorem endsName_nil : EndsName [] := by
  simp [EndsName]

theorem endsName_cons {first : Symbol} {rest : List Symbol} (noDot : first.kind ≠ .dot)
    (noSegment : first.kind ≠ .identifier) : EndsName (first :: rest) := by
  simpa [EndsName] using ⟨noDot, noSegment⟩

theorem EndsName.append {front back : List Symbol} (frontEnds : EndsName front)
    (backEnds : EndsName back) : EndsName (front ++ back) := by
  cases front with
  | nil => exact backEnds
  | cons first rest => simpa [EndsName] using frontEnds

theorem continuesName_append (front : List Symbol) {back : List Symbol} (ends : EndsName back) :
    continuesName (front ++ back) = continuesName front := by
  rcases front with _ | ⟨first, _ | ⟨second, rest⟩⟩
  · rcases back with _ | ⟨next, _ | ⟨following, others⟩⟩
    · rfl
    · rfl
    · have noDot := (ends next rfl).1
      simp [continuesName, noDot]
  · cases back with
    | nil => rfl
    | cons next others =>
        have noSegment := (ends next rfl).2
        simp [continuesName, noSegment]
  · rfl

theorem qualifiedNames_cons_of_ne {first : Symbol} (other : first.kind ≠ .identifier)
    (rest : List Symbol) : qualifiedNames (first :: rest) = qualifiedNames rest := by
  simp only [qualifiedNames, other, if_false]

theorem qualifiedNames_ne_nil_of_continues {symbols : List Symbol}
    (continues : continuesName symbols = true) : qualifiedNames symbols ≠ [] := by
  rcases symbols with _ | ⟨dot, _ | ⟨segment, rest⟩⟩
  · cases continues
  · cases continues
  · simp only [continuesName, Bool.and_eq_true, decide_eq_true_eq] at continues
    rcases continues with ⟨isDot, isSegment⟩
    rw [qualifiedNames_cons_of_ne (by simp [isDot])]
    simp only [qualifiedNames, isSegment, if_true]
    split
    · next further =>
      exact fun none => qualifiedNames_ne_nil_of_continues further (List.modifyHead_eq_nil_iff.1 none)
    · simp

/--
Symbols behind each other have the names of both, unless a name goes on from the first to the
second.
-/
theorem qualifiedNames_append (front : List Symbol) {back : List Symbol} (ends : EndsName back) :
    qualifiedNames (front ++ back) = qualifiedNames front ++ qualifiedNames back := by
  induction front with
  | nil => rfl
  | cons first rest ih =>
      simp only [List.cons_append, qualifiedNames, continuesName_append rest ends, ih]
      split
      · split
        · next continues =>
          cases names : qualifiedNames rest with
          | nil => exact absurd names (qualifiedNames_ne_nil_of_continues continues)
          | cons name names => rfl
        · rfl
      · rfl

theorem qualifiedNames_name (first : String) (further : List String) :
    qualifiedNames (name first further) = [first :: further] := by
  induction further generalizing first with
  | nil => rfl
  | cons second others ih =>
      have isWhole : name first (second :: others) =
          ⟨.identifier, first⟩ :: ⟨.dot, "."⟩ :: name second others := rfl
      have continues : continuesName (⟨.dot, "."⟩ :: name second others) = true := rfl
      rw [isWhole, qualifiedNames, if_pos rfl, if_pos continues,
        qualifiedNames_cons_of_ne (by simp), ih second]
      rfl

theorem qualifiedNames_suffixes (dims : Nat) : qualifiedNames (suffixes dims) = [] := by
  induction dims with
  | zero => rfl
  | succ dims ih => simpa [suffixes, qualifiedNames] using ih

theorem endsName_suffixes (dims : Nat) : EndsName (suffixes dims) := by
  cases dims with
  | zero => exact endsName_nil
  | succ dims => exact endsName_cons (by simp) (by simp)

/--
The names of a part are names of the whole, if the separator is neither a dot nor an identifier.
-/
theorem mem_qualifiedNames_separate {separator : Symbol} (noDot : separator.kind ≠ .dot)
    (noSegment : separator.kind ≠ .identifier) {parts : List (List Symbol)} {part : List Symbol}
    (isPart : part ∈ parts) {segments : List String} (isName : segments ∈ qualifiedNames part) :
    segments ∈ qualifiedNames (separate separator parts) := by
  induction parts with
  | nil => cases isPart
  | cons first rest ih =>
      cases rest with
      | nil =>
          cases List.mem_singleton.1 isPart
          exact isName
      | cons second others =>
          rw [separate_cons separator first (by simp),
            qualifiedNames_append first (endsName_cons noDot noSegment),
            qualifiedNames_cons_of_ne noSegment]
          rcases List.mem_cons.1 isPart with rfl | later
          · exact List.mem_append_left _ isName
          · exact List.mem_append_right _ (ih later)

theorem endsName_argumentSymbols (arguments : List TypeTree) :
    EndsName (TypeTree.argumentSymbols arguments) := by
  cases arguments with
  | nil => exact endsName_nil
  | cons first rest => exact endsName_cons (by simp) (by simp)

theorem endsName_boundSymbols {keyword : Symbol} (noDot : keyword.kind ≠ .dot)
    (noSegment : keyword.kind ≠ .identifier) (bounds : List NamedTree) :
    EndsName (NamedTree.boundSymbols keyword bounds) := by
  cases bounds with
  | nil => exact endsName_nil
  | cons first rest => exact endsName_cons noDot noSegment

theorem mem_qualifiedNames_argumentSymbols {arguments : List TypeTree} {argument : TypeTree}
    (isArgument : argument ∈ arguments) {segments : List String}
    (isName : segments ∈ qualifiedNames argument.yield) :
    segments ∈ qualifiedNames (TypeTree.argumentSymbols arguments) := by
  have nonempty : arguments ≠ [] := List.ne_nil_of_mem isArgument
  simp only [TypeTree.argumentSymbols, List.isEmpty_iff, nonempty, if_false, List.cons_append]
  rw [qualifiedNames_cons_of_ne (by simp),
    qualifiedNames_append _ (endsName_cons (by simp) (by simp))]
  exact List.mem_append_left _ (mem_qualifiedNames_separate (by simp) (by simp)
    (List.mem_map_of_mem isArgument) isName)

theorem mem_qualifiedNames_boundSymbols {keyword : Symbol} (noSegment : keyword.kind ≠ .identifier)
    {bounds : List NamedTree} {bound : NamedTree} (isBound : bound ∈ bounds)
    {segments : List String} (isName : segments ∈ qualifiedNames bound.yield) :
    segments ∈ qualifiedNames (NamedTree.boundSymbols keyword bounds) := by
  have nonempty : bounds ≠ [] := List.ne_nil_of_mem isBound
  simp only [NamedTree.boundSymbols, List.isEmpty_iff, nonempty, if_false]
  rw [qualifiedNames_cons_of_ne noSegment]
  exact mem_qualifiedNames_separate (by simp) (by simp) (List.mem_map_of_mem isBound) isName

/-- The names of a named type are its own one and those of its arguments. -/
theorem qualifiedNames_yield (first : String) (further : List String) (inner : Nat)
    (arguments : List TypeTree) (outer : Nat) :
    qualifiedNames (NamedTree.mk first further inner arguments outer).yield =
      (first :: further) :: qualifiedNames (TypeTree.argumentSymbols arguments) := by
  have argumentsEnd := endsName_argumentSymbols arguments
  have outerEnds := endsName_suffixes outer
  have behindEnds := (endsName_suffixes inner).append (argumentsEnd.append outerEnds)
  rw [NamedTree.yield_mk, qualifiedNames_append _ behindEnds, qualifiedNames_name,
    qualifiedNames_append _ (argumentsEnd.append outerEnds), qualifiedNames_suffixes,
    qualifiedNames_append _ outerEnds, qualifiedNames_suffixes]
  simp

theorem mem_qualifiedNames_wildcard {upper lower : List NamedTree} {bound : NamedTree}
    (isBound : bound ∈ upper ∨ bound ∈ lower) {segments : List String}
    (isName : segments ∈ qualifiedNames bound.yield) :
    segments ∈ qualifiedNames (TypeTree.wildcard upper lower).yield := by
  have lowerEnds : EndsName (NamedTree.boundSymbols ⟨.superWord, "super"⟩ lower) :=
    endsName_boundSymbols (by simp) (by simp) lower
  rw [TypeTree.yield_wildcard, qualifiedNames_cons_of_ne (by simp),
    qualifiedNames_append _ lowerEnds]
  rcases isBound with isUpper | isLower
  · exact List.mem_append_left _ (mem_qualifiedNames_boundSymbols (by simp) isUpper isName)
  · exact List.mem_append_right _ (mem_qualifiedNames_boundSymbols (by simp) isLower isName)

end Symbol

/-- What a name of the symbols stands for in the scope, it stands for in the other one. -/
def Scope.KeepsNames (scope other : Scope) (symbols : List Symbol) : Prop :=
  ∀ segments ∈ Symbol.qualifiedNames symbols, ∀ referent,
    scope.resolve segments = .ok referent → other.resolve segments = .ok referent

/-- The trees of a list mean what each of them means where its names are kept. -/
theorem Scope.KeepsNames.areMeanings {scope other : Scope} {tree : Type}
    {yield : tree → List Symbol} {means : tree → Ty → Prop} {trees : List tree} {types : List Ty}
    (areKept : List.Forall₂ (fun tree ty => scope.KeepsNames other (yield tree) → means tree ty)
      trees types) (keeps : ∀ tree ∈ trees, scope.KeepsNames other (yield tree)) :
    List.Forall₂ means trees types := by
  refine ((List.forall₂_and_left trees types).2 ⟨keeps, areKept⟩).imp ?_
  rintro tree ty ⟨keeps, isKept⟩
  exact isKept keeps

/-- A derivation means the same where its names do. -/
theorem TypeTree.meaning?_of_keepsNames {scope other : Scope}
    (sameCatalog : other.catalog = scope.catalog) {levels : Nat} {tree : TypeTree} {ty : Ty}
    (isMeaning : tree.meaning? scope levels = some ty) :
    scope.KeepsNames other tree.yield → tree.meaning? other levels = some ty := by
  refine @TypeTree.meaning?_induct scope levels
    (fun levels tree ty =>
      scope.KeepsNames other tree.yield → tree.meaning? other levels = some ty)
    (fun levels tree ty =>
      scope.KeepsNames other tree.yield → tree.boundMeaning? other levels = some ty)
    (fun levels tree ty =>
      scope.KeepsNames other tree.yield → tree.meaning? other levels = some ty)
    ?named (fun keeps => keeps) (fun keeps => keeps) ?wildcard tree ty isMeaning
  case named =>
    intro levels first further inner arguments outer referent types element resolved areKept
      isElement fits keeps
    rw [Scope.KeepsNames, Symbol.qualifiedNames_yield, List.forall_mem_cons] at keeps
    rcases keeps with ⟨keepsName, keepsArguments⟩
    have areMeanings := Scope.KeepsNames.areMeanings areKept
      fun argument isArgument segments isName =>
        keepsArguments segments (Symbol.mem_qualifiedNames_argumentSymbols isArgument isName)
    rw [← sameCatalog] at isElement
    exact NamedTree.meaning?_eq_some_iff.2
      ⟨referent, types, element, keepsName referent resolved, areMeanings, isElement, fits, rfl⟩
  case wildcard =>
    intro levels upper lower uppers lowers upperKept lowerKept keeps
    have areUpper := Scope.KeepsNames.areMeanings upperKept fun bound isBound segments isName =>
      keeps segments (Symbol.mem_qualifiedNames_wildcard (.inl isBound) isName)
    have areLower := Scope.KeepsNames.areMeanings lowerKept fun bound isBound segments isName =>
      keeps segments (Symbol.mem_qualifiedNames_wildcard (.inr isBound) isName)
    exact meaning?_wildcard_eq_some_iff.2 ⟨uppers, lowers, areUpper, areLower, rfl⟩

namespace Scope

variable {scope other : Scope}

/-- A keyword stands for its primitive type in every scope. -/
theorem resolve_keyword (scope : Scope) (primitive : Primitive) :
    scope.resolve [primitive.keyword] = .ok (.ofClass (.ofPrimitive primitive)) := by
  simp only [resolve, resolveSimple, Primitive.ofKeyword?_keyword]

/-- The imports are looked at behind every known class. -/
theorem resolve_of_withoutImports (noImports : scope.imports = none)
    (sameCatalog : other.catalog = scope.catalog) {segments : List String}
    (several : 2 ≤ segments.length) {referent : Referent}
    (resolved : scope.resolve segments = .ok referent) : other.resolve segments = .ok referent := by
  rcases segments with _ | ⟨first, _ | ⟨second, others⟩⟩
  · simp at several
  · simp at several
  · have noImported : scope.importedSpelling (first :: second :: others) = [] := by
      simp only [importedSpelling, candidates, noImports]
    simp only [resolve, resolveDotted, noImported, List.append_nil] at resolved
    simp only [resolve, resolveDotted, sameCatalog, List.find?_append]
    split at resolved
    · next found =>
      rw [found]
      exact resolved
    · cases resolved

/-- A qualified name stands for the same in every scope with the catalog. -/
theorem resolve_of_isQualified (noImports : scope.imports = none)
    (sameCatalog : other.catalog = scope.catalog) {segments : List String}
    (qualified : IsQualified segments) {referent : Referent}
    (resolved : scope.resolve segments = .ok referent) : other.resolve segments = .ok referent := by
  rcases qualified with several | ⟨primitive, rfl⟩
  · exact resolve_of_withoutImports noImports sameCatalog several resolved
  · rw [resolve_keyword] at resolved ⊢
    exact resolved

/-- Text with qualified names only is read with any imports and variables as it is without. -/
theorem parse_of_qualifiedNames {scope : Scope} {depth : Nat} {text : String} {ty : Ty}
    (qualified : ∀ segments ∈ Lexeme.qualifiedNames text, IsQualified segments)
    (read : ({ catalog := scope.catalog } : Scope).parse depth text = .ok ty) :
    scope.parse depth text = .ok ty := by
  rcases exists_tree_of_parse read with ⟨tree, isYield, isMeaning⟩
  have noImports : ({ catalog := scope.catalog } : Scope).imports = none := rfl
  have sameCatalog : scope.catalog = ({ catalog := scope.catalog } : Scope).catalog := rfl
  apply parse_of_tree isYield
  apply TypeTree.meaning?_of_keepsNames sameCatalog isMeaning
  rw [isYield]
  intro segments isName referent resolved
  exact resolve_of_isQualified noImports sameCatalog (qualified segments isName) resolved

/-- The classes in a scope whose imports and variables have the first words of their names. -/
def shadowing : Scope where
  catalog := ofGraph.catalog
  imports := some ⟨["z.a", "b.int", "c.int"], by decide⟩
  parameters := [.unbounded (.type (.plain "a.Graph")) "int",
    .unbounded (.type (.plain "a.Graph")) "a"]

theorem parse_of_qualifiedNames_shadowing :
    (∀ segments ∈ Lexeme.qualifiedNames "a.Graph<? extends a.Graph.Node<int[]>[]>",
      IsQualified segments) ∧
      shadowing.parse 4 "a.Graph<? extends a.Graph.Node<int[]>[]>" =
        .ok (.parameterized none (.plain "a.Graph")
          [.wildcard [.array (nodeOf (.nominal ⟨"int", 1, by decide⟩))] []]) := by
  have names : Lexeme.qualifiedNames "a.Graph<? extends a.Graph.Node<int[]>[]>" =
      [["a", "Graph"], ["a", "Graph", "Node"], ["int"]] := by
    decide +kernel
  have qualified : ∀ segments ∈
      Lexeme.qualifiedNames "a.Graph<? extends a.Graph.Node<int[]>[]>", IsQualified segments := by
    rw [names]
    simp only [List.forall_mem_cons]
    exact ⟨.inl (by decide), .inl (by decide), .inr ⟨.int, rfl⟩, List.forall_mem_nil _⟩
  refine ⟨qualified, parse_of_qualifiedNames qualified ?_⟩
  decide +kernel

end Scope

end NominalTypes
