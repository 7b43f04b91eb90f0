import NominalTypes.Proofs.Grammar.Names
import NominalTypes.Proofs.Grammar.Trees

/-!
# What is read is derived

Each reader of the grammar is sound for its production: where it reads something, the lexemes that
it takes spell a derivation which means what is read. The readers of lists and of named types are
sound if the reader is that they use for the parts, so that one induction on the nesting levels
closes the circle in `Scope.exists_tree_of_parse`.
-/

namespace NominalTypes

namespace Grammar

open Lexeme

variable {length : Nat} {scope : Scope} {lexemes remaining : List Lexeme}

/-- Whatever the reader reads is spelled by a tree with that meaning. -/
def IsSound {tree item : Type} (yield : tree → List Symbol) (means : tree → item → Prop)
    (read : LexemeReader item) : Prop :=
  ∀ lexemes item remaining, AreShaped lexemes → read lexemes = .ok (item, remaining) →
    ∃ tree, means tree item ∧ Spells lexemes (yield tree) remaining

/-- What is expected is read exactly where its symbol comes next. -/
theorem expect_eq_ok_iff {kind : LexemeKind} {text : String} :
    expect length kind lexemes = .ok (text, remaining) ↔
      ∃ lexeme, lexemes = lexeme :: remaining ∧ lexeme.symbol = ⟨kind, text⟩ := by
  cases lexemes with
  | nil => simp [expect]
  | cons first rest =>
      by_cases isKind : first.kind = kind
      · simp [expect, isKind, symbol, and_comm]
      · simp [expect, isKind, symbol]

theorem furtherSegments_spells {segments : List String} (shaped : AreShaped lexemes)
    (read : furtherSegments length lexemes = .ok (segments, remaining)) :
    Spells lexemes (segments.flatMap fun segment => [⟨.dot, "."⟩, ⟨.identifier, segment⟩])
      remaining := by
  fun_induction furtherSegments length lexemes generalizing segments with
  | case1 =>
      cases read
      exact spells_nil_iff.2 rfl
  | case2 lexeme isDot => cases read
  | case3 lexeme isDot segment behind isIdentifier ih =>
      rcases bind_eq_ok.1 read with ⟨⟨segments, remaining⟩, isRest, isResult⟩
      cases isResult
      have rest := ih shaped.tail.tail isRest
      have isSegment : segment.symbol = ⟨.identifier, segment.text⟩ := by
        simp [symbol, isIdentifier]
      exact shaped.spells_cons isDot rfl
        (spells_cons_iff.2 ⟨segment, behind, rfl, isSegment, rest⟩)
  | case4 lexeme isDot segment behind notIdentifier => cases read
  | case5 lexeme rest notDot =>
      cases read
      exact spells_nil_iff.2 rfl

/-- A name that is read is spelled by its segments, of which there is at least one. -/
theorem qualifiedName_spells {segments : List String} (shaped : AreShaped lexemes)
    (read : qualifiedName length lexemes = .ok (segments, remaining)) :
    ∃ first further, segments = first :: further ∧
      Spells lexemes (Symbol.name first further) remaining := by
  rcases bind_eq_ok.1 read with ⟨⟨first, rest⟩, isFirst, read⟩
  rcases bind_eq_ok.1 read with ⟨⟨further, remaining⟩, isFurther, isResult⟩
  cases isResult
  rcases expect_eq_ok_iff.1 isFirst with ⟨lexeme, rfl, isSymbol⟩
  exact ⟨first, further, rfl, spells_cons_iff.2
    ⟨lexeme, rest, rfl, isSymbol, furtherSegments_spells shaped.tail isFurther⟩⟩

theorem arraySuffixes_spells {dims : Nat} (shaped : AreShaped lexemes)
    (read : arraySuffixes length lexemes = .ok (dims, remaining)) :
    Spells lexemes (Symbol.suffixes dims) remaining := by
  fun_induction arraySuffixes length lexemes generalizing dims with
  | case1 =>
      cases read
      exact spells_nil_iff.2 rfl
  | case2 lexeme isOpen => cases read
  | case3 lexeme isOpen closing behind isClose ih =>
      rcases bind_eq_ok.1 read with ⟨⟨inner, rest⟩, isRest, isResult⟩
      cases isResult
      exact shaped.spells_cons isOpen rfl
        (shaped.tail.spells_cons isClose rfl (ih shaped.tail.tail isRest))
  | case4 lexeme isOpen closing behind notClose => cases read
  | case5 lexeme rest notOpen =>
      cases read
      exact spells_nil_iff.2 rfl

/-- Separated items that are read are spelled by trees with separators between them. -/
theorem separated_spells {tree item : Type} {yield : tree → List Symbol}
    {means : tree → item → Prop} {read : LexemeReader item} (sound : IsSound yield means read)
    {separator : LexemeKind} {spelling : String} (known : separator.spelling? = some spelling)
    {count : Nat} {items : List item} (shaped : AreShaped lexemes)
    (run : separated separator read count lexemes = .ok (items, remaining)) :
    ∃ trees, trees ≠ [] ∧ List.Forall₂ means trees items ∧
      Spells lexemes (Symbol.separate ⟨separator, spelling⟩ (trees.map yield)) remaining := by
  induction count generalizing lexemes items with
  | zero =>
      rcases bind_eq_ok.1 run with ⟨⟨first, rest⟩, isFirst, isResult⟩
      cases isResult
      rcases sound lexemes first remaining shaped isFirst with ⟨tree, isMeaning, spelled⟩
      exact ⟨[tree], by simp, .cons isMeaning .nil, spelled⟩
  | succ count ih =>
      rcases bind_eq_ok.1 run with ⟨⟨first, rest⟩, isFirst, run⟩
      rcases sound lexemes first rest shaped isFirst with ⟨tree, isMeaning, spelled⟩
      cases rest with
      | nil =>
          cases run
          exact ⟨[tree], by simp, .cons isMeaning .nil, spelled⟩
      | cons lexeme behind =>
          by_cases isSeparator : lexeme.kind = separator
          · simp only [isSeparator, if_true] at run
            rcases bind_eq_ok.1 run with ⟨⟨further, last⟩, isFurther, isResult⟩
            cases isResult
            have shapedRest := shaped.remaining spelled
            rcases ih shapedRest.tail isFurther with ⟨trees, nonempty, areMeanings, isSpelled⟩
            refine ⟨tree :: trees, by simp, .cons isMeaning areMeanings, ?_⟩
            rw [List.map_cons, Symbol.separate_cons _ _ (by simpa using nonempty)]
            exact spells_append_iff.2
              ⟨lexeme :: behind, spelled, shapedRest.spells_cons isSeparator known isSpelled⟩
          · simp only [isSeparator, if_false] at run
            cases run
            exact ⟨[tree], by simp, .cons isMeaning .nil, spelled⟩

/-- Applying what a known name stands for means what the grammar says. -/
theorem applied_eq_ok_iff {referent : Referent} (known : referent.IsKnownIn scope)
    {arguments : List Ty} (nonempty : arguments ≠ []) {ty : Ty} :
    applied scope arguments referent = .ok ty ↔
      referent.applied? scope.catalog arguments = some ty := by
  cases arguments with
  | nil => exact absurd rfl nonempty
  | cons argument arguments =>
      cases referent with
      | ofVariable parameter => simp [applied, Referent.applied?]
      | ofClass raw =>
          simp [applied, Catalog.parameterize_eq_ok_iff, Referent.applied?, known.1]

section

variable {levels : Nat} {read : LexemeReader Ty}

/-- A reader of types is sound for derivations with the given nesting levels. -/
def IsSoundForTypes (scope : Scope) (levels : Nat) (read : LexemeReader Ty) : Prop :=
  IsSound TypeTree.yield (fun tree ty => tree.meaning? scope levels = some ty) read

/-- A class that is read with its arguments is applied to what the trees of these mean. -/
theorem application_spells (sound : IsSoundForTypes scope levels read) {referent : Referent}
    (known : referent.IsKnownIn scope) {ty : Ty} (shaped : AreShaped lexemes)
    (run : application scope length read referent lexemes = .ok (ty, remaining)) :
    ∃ trees types,
      List.Forall₂ (fun tree ty => TypeTree.meaning? scope levels tree = some ty) trees types ∧
      referent.applied? scope.catalog types = some ty ∧
      Spells lexemes (TypeTree.argumentSymbols trees) remaining := by
  have unapplied : referent.applied? scope.catalog [] = some referent.toTy := by
    cases referent <;> rfl
  cases lexemes with
  | nil =>
      cases run
      exact ⟨[], [], .nil, unapplied, spells_nil_iff.2 rfl⟩
  | cons lexeme rest =>
      by_cases isOpen : lexeme.kind = .angleOpen
      · simp only [application, isOpen, if_true] at run
        rcases bind_eq_ok.1 run with ⟨⟨types, behind⟩, areTypes, run⟩
        rcases bind_eq_ok.1 run with ⟨⟨closing, last⟩, isClose, run⟩
        rcases bind_eq_ok.1 run with ⟨result, isApplied, isResult⟩
        cases isResult
        rcases separated_spells sound (show LexemeKind.spelling? .comma = some "," from rfl) shaped.tail
            areTypes with ⟨trees, nonempty, areMeanings, spelled⟩
        rcases expect_eq_ok_iff.1 isClose with ⟨angle, rfl, isAngle⟩
        have isKind : angle.kind = .angleClose := congrArg Symbol.kind isAngle
        have some : types ≠ [] := by
          rintro rfl
          cases areMeanings
          exact nonempty rfl
        have closes := (shaped.tail.remaining spelled).spells_cons isKind rfl
          (spells_nil_iff.2 rfl)
        refine ⟨trees, types, areMeanings, (applied_eq_ok_iff known some).1 isApplied, ?_⟩
        simp only [TypeTree.argumentSymbols, List.isEmpty_iff, nonempty, if_false]
        exact shaped.spells_cons isOpen rfl
          (spells_append_iff.2 ⟨angle :: last, spelled, closes⟩)
      · simp only [application, isOpen, if_false] at run
        cases run
        exact ⟨[], [], .nil, unapplied, spells_nil_iff.2 rfl⟩

/-- A named type is read part by part, with at most 255 suffixes on both sides of its arguments. -/
theorem namedType_eq_ok_iff {ty : Ty} :
    namedType scope length read lexemes = .ok (ty, remaining) ↔
      ∃ segments behindName inner behindSuffixes referent element behindArguments outer,
        qualifiedName length lexemes = .ok (segments, behindName) ∧
        arraySuffixes length behindName = .ok (inner, behindSuffixes) ∧
        scope.resolve segments = .ok referent ∧
        application scope length read referent behindSuffixes = .ok (element, behindArguments) ∧
        arraySuffixes length behindArguments = .ok (outer, remaining) ∧
        inner + outer ≤ 255 ∧ ty = Ty.arrayOfTimes (inner + outer) element := by
  simp only [namedType, bind_eq_ok, Prod.exists]
  constructor
  · rintro ⟨segments, behindName, isName, inner, behindSuffixes, areInner, referent, resolved,
      element, behindArguments, isElement, outer, last, areOuter, finished⟩
    by_cases tooMany : 255 < inner + outer
    · simp [tooMany] at finished
    · simp only [tooMany, if_false] at finished
      cases finished
      exact ⟨segments, behindName, inner, behindSuffixes, referent, element, behindArguments, outer,
        isName, areInner, resolved, isElement, areOuter, Nat.not_lt.1 tooMany, rfl⟩
  · rintro ⟨segments, behindName, inner, behindSuffixes, referent, element, behindArguments, outer,
      isName, areInner, resolved, isElement, areOuter, fits, rfl⟩
    refine ⟨segments, behindName, isName, inner, behindSuffixes, areInner, referent, resolved,
      element, behindArguments, isElement, outer, remaining, areOuter, ?_⟩
    rw [if_neg (Nat.not_lt.2 fits)]

/-- The reader of named types is sound if the reader of the types in them is. -/
theorem namedType_isSound (sound : IsSoundForTypes scope levels read) :
    IsSound NamedTree.yield (fun tree ty => tree.meaning? scope levels = some ty)
      (namedType scope length read) := by
  intro lexemes ty remaining shaped run
  rcases namedType_eq_ok_iff.1 run with ⟨segments, behindName, inner, behindSuffixes, referent,
    element, behindArguments, outer, isName, areInner, resolved, isApplied, areOuter, fits, isTy⟩
  rcases qualifiedName_spells shaped isName with ⟨first, further, rfl, spellsName⟩
  have shapedName := shaped.remaining spellsName
  have spellsInner := arraySuffixes_spells shapedName areInner
  have shapedInner := shapedName.remaining spellsInner
  rcases application_spells sound (Scope.resolve_isKnownIn resolved) shapedInner isApplied with
    ⟨trees, types, areMeanings, isElement, spellsArguments⟩
  have shapedArguments := shapedInner.remaining spellsArguments
  have spellsOuter := arraySuffixes_spells shapedArguments areOuter
  refine ⟨⟨first, further, inner, trees, outer⟩, ?_, ?_⟩
  · exact NamedTree.meaning?_eq_some_iff.2
      ⟨referent, types, element, resolved, areMeanings, isElement, fits, isTy⟩
  · rw [NamedTree.yield_mk]
    exact spells_append_iff.2 ⟨behindName, spellsName, spells_append_iff.2
      ⟨behindSuffixes, spellsInner, spells_append_iff.2
        ⟨behindArguments, spellsArguments, spellsOuter⟩⟩⟩

theorem boundsBehind_spells {bound : LexemeReader Ty}
    (sound : IsSound NamedTree.yield (fun tree ty => tree.boundMeaning? scope levels = some ty)
      (Grammar.bound bound)) {keyword : LexemeKind} {spelling : String}
    (known : keyword.spelling? = some spelling) {types : List Ty} (shaped : AreShaped lexemes)
    (run : boundsBehind keyword bound lexemes = .ok (types, remaining)) :
    ∃ trees,
      List.Forall₂ (fun tree ty => NamedTree.boundMeaning? scope levels tree = some ty)
        trees types ∧
      Spells lexemes (NamedTree.boundSymbols ⟨keyword, spelling⟩ trees) remaining := by
  cases lexemes with
  | nil =>
      cases run
      exact ⟨[], .nil, spells_nil_iff.2 rfl⟩
  | cons lexeme rest =>
      by_cases isKeyword : lexeme.kind = keyword
      · simp only [boundsBehind, isKeyword, if_true] at run
        rcases separated_spells sound (show LexemeKind.spelling? .ampersand = some "&" from rfl) shaped.tail
            run with ⟨trees, nonempty, areMeanings, spelled⟩
        refine ⟨trees, areMeanings, ?_⟩
        simp only [NamedTree.boundSymbols, List.isEmpty_iff, nonempty, if_false]
        exact shaped.spells_cons isKeyword known spelled
      · simp only [boundsBehind, isKeyword, if_false] at run
        cases run
        exact ⟨[], .nil, spells_nil_iff.2 rfl⟩

theorem wildcardBounds_eq_ok_iff {ty : Ty} :
    wildcardBounds read lexemes = .ok (ty, remaining) ↔
      ∃ uppers behind lowers, boundsBehind .extendsWord read lexemes = .ok (uppers, behind) ∧
        boundsBehind .superWord read behind = .ok (lowers, remaining) ∧
        ty = Ty.wildcardOf uppers lowers := by
  simp only [wildcardBounds, bind_eq_ok, Prod.exists, Except.ok.injEq, Prod.mk.injEq]
  constructor
  · rintro ⟨uppers, behind, areUpper, lowers, last, areLower, rfl, rfl⟩
    exact ⟨uppers, behind, lowers, areUpper, areLower, rfl⟩
  · rintro ⟨uppers, behind, lowers, areUpper, areLower, rfl⟩
    exact ⟨uppers, behind, areUpper, lowers, remaining, areLower, rfl, rfl⟩

/-- A wildcard that is read is what the derivation of its bounds means. -/
theorem wildcardBounds_spells
    (sound : IsSound NamedTree.yield (fun tree ty => tree.boundMeaning? scope levels = some ty)
      (bound read)) {ty : Ty} (shaped : AreShaped lexemes)
    (run : wildcardBounds read lexemes = .ok (ty, remaining)) :
    ∃ upper lower, (TypeTree.wildcard upper lower).meaning? scope (levels + 1) = some ty ∧
      Spells lexemes (NamedTree.boundSymbols ⟨.extendsWord, "extends"⟩ upper ++
        NamedTree.boundSymbols ⟨.superWord, "super"⟩ lower) remaining := by
  rcases wildcardBounds_eq_ok_iff.1 run with ⟨uppers, behind, lowers, areUpper, areLower, isTy⟩
  have extendsKnown : LexemeKind.spelling? .extendsWord = some "extends" := rfl
  have superKnown : LexemeKind.spelling? .superWord = some "super" := rfl
  rcases boundsBehind_spells sound extendsKnown shaped areUpper with
    ⟨upper, upperMeanings, spellsUpper⟩
  rcases boundsBehind_spells sound superKnown (shaped.remaining spellsUpper) areLower with
    ⟨lower, lowerMeanings, spellsLower⟩
  refine ⟨upper, lower, ?_, spells_append_iff.2 ⟨behind, spellsUpper, spellsLower⟩⟩
  exact TypeTree.meaning?_wildcard_eq_some_iff.2 ⟨uppers, lowers, upperMeanings, lowerMeanings, isTy⟩

end

/-- Where no wildcard starts, a type is read as a named type that is one level deeper. -/
theorem type_succ_eq_namedType {levels : Nat} (named : startsWith .question lexemes = false) :
    type scope length (levels + 1) lexemes =
      namedType scope length (type scope length levels) lexemes := by
  cases lexemes with
  | nil => rfl
  | cons lexeme rest =>
      have notQuestion : ¬lexeme.kind = .question := by simpa [startsWith] using named
      simp [type, notQuestion]

theorem type_succ_eq_wildcardBounds {levels : Nat} {lexeme : Lexeme} {rest : List Lexeme}
    (isQuestion : lexeme.kind = .question) :
    type scope length (levels + 1) (lexeme :: rest) =
      wildcardBounds (type scope length levels) rest := by
  simp only [type, isQuestion, if_true]

/-- A bound that is read is a named type, one nesting level below its wildcard. -/
theorem bound_isSound {levels : Nat}
    (sound : ∀ inner < levels, IsSoundForTypes scope inner (type scope length inner)) :
    IsSound NamedTree.yield (fun tree ty => tree.boundMeaning? scope levels = some ty)
      (bound (type scope length levels)) := by
  intro lexemes ty remaining shaped run
  simp only [bound] at run
  split at run
  · cases run
  · next notQuestion =>
    cases levels with
    | zero => cases run
    | succ inner =>
        rw [type_succ_eq_namedType (by simpa using notQuestion)] at run
        exact namedType_isSound (sound inner (Nat.lt_succ_self inner)) lexemes ty remaining
          shaped run

/-- Types are read as the grammar derives them, on every number of nesting levels. -/
theorem type_isSound (scope : Scope) (length levels : Nat) :
    IsSoundForTypes scope levels (type scope length levels) := by
  induction levels using Nat.strongRecOn with
  | ind levels ih =>
      intro lexemes ty remaining shaped run
      cases levels with
      | zero => cases run
      | succ levels =>
          cases starts : startsWith .question lexemes with
          | false =>
              rw [type_succ_eq_namedType starts] at run
              rcases namedType_isSound
                  (ih levels (Nat.lt_succ_self levels)) lexemes ty remaining shaped run with
                  ⟨tree, isMeaning, spelled⟩
              exact ⟨.named tree, isMeaning, spelled⟩
          | true =>
              cases lexemes with
              | nil => cases starts
              | cons lexeme rest =>
                  have isQuestion : lexeme.kind = .question := by
                    simpa [startsWith] using starts
                  have boundSound := bound_isSound fun inner deeper =>
                    ih inner (Nat.lt_succ_of_lt deeper)
                  rw [type_succ_eq_wildcardBounds isQuestion] at run
                  rcases wildcardBounds_spells boundSound shaped.tail run with
                    ⟨upper, lower, isMeaning, spelled⟩
                  refine ⟨.wildcard upper lower, isMeaning, ?_⟩
                  rw [TypeTree.yield_wildcard]
                  exact shaped.spells_cons isQuestion rfl spelled

end Grammar

/-- A text that is read as a type has a derivation that means the type. -/
theorem Scope.exists_tree_of_parse {scope : Scope} {depth : Nat} {text : String} {ty : Ty}
    (read : scope.parse depth text = .ok ty) :
    ∃ tree : TypeTree, tree.yield = (Lexeme.significant text).map Lexeme.symbol ∧
      tree.meaning? scope depth = some ty := by
  have shaped : Lexeme.AreShaped (Lexeme.significant text) :=
    fun lexeme member => Lexeme.hasShape_of_mem_significant member
  simp only [Scope.parse] at read
  cases isText : Lexeme.significant text with
  | nil =>
      rw [isText] at read
      cases read
  | cons first rest =>
      rw [isText] at read shaped
      rcases bind_eq_ok.1 read with ⟨⟨ty, remaining⟩, isType, read⟩
      rcases Grammar.type_isSound scope _ depth _ _ _ shaped isType with
          ⟨tree, isMeaning, consumed, isYield, isAll⟩
      cases remaining with
      | cons next behind => cases read
      | nil =>
          cases read
          rw [List.append_nil] at isAll
          exact ⟨tree, by rw [isAll, isYield], isMeaning⟩

end NominalTypes
