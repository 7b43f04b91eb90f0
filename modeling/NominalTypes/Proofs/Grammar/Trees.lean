import Mathlib.Data.List.Forall2
import NominalTypes.Proofs.Grammar.Shape

/-!
# Derivations and the lexemes that spell them

The yield of a derivation is put together from the yields of its parts, and its meaning from their
meanings; both are stated here for lists of parts, by `List.map` and `List.Forall₂`. Lexemes spell
symbols up to what remains of them: `Lexeme.Spells` divides wherever the symbols do, so that a
derivation is compared with lexemes part by part.
-/

namespace NominalTypes

namespace Lexeme

/-- The lexemes begin with lexemes of the symbols, and the remaining ones follow. -/
def Spells (lexemes : List Lexeme) (symbols : List Symbol) (remaining : List Lexeme) : Prop :=
  ∃ consumed, consumed.map symbol = symbols ∧ lexemes = consumed ++ remaining

/-- Every lexeme has the shape of its kind. -/
def AreShaped (lexemes : List Lexeme) : Prop := ∀ lexeme ∈ lexemes, lexeme.HasShape

@[simp] theorem spells_nil_iff {lexemes remaining : List Lexeme} :
    Spells lexemes [] remaining ↔ lexemes = remaining := by
  simp [Spells]

theorem spells_cons_iff {lexemes remaining : List Lexeme} {first : Symbol}
    {symbols : List Symbol} :
    Spells lexemes (first :: symbols) remaining ↔
      ∃ lexeme rest, lexemes = lexeme :: rest ∧ lexeme.symbol = first ∧
        Spells rest symbols remaining := by
  constructor
  · rintro ⟨consumed, isSpelled, rfl⟩
    rcases List.map_eq_cons_iff.1 isSpelled with ⟨lexeme, rest, rfl, isFirst, isRest⟩
    exact ⟨lexeme, rest ++ remaining, rfl, isFirst, rest, isRest, rfl⟩
  · rintro ⟨lexeme, rest, rfl, rfl, consumed, rfl, rfl⟩
    exact ⟨lexeme :: consumed, rfl, rfl⟩

/-- Lexemes spell symbols behind each other where they divide into those of both. -/
theorem spells_append_iff {lexemes remaining : List Lexeme} {front back : List Symbol} :
    Spells lexemes (front ++ back) remaining ↔
      ∃ middle, Spells lexemes front middle ∧ Spells middle back remaining := by
  constructor
  · rintro ⟨consumed, isSpelled, rfl⟩
    rcases List.map_eq_append_iff.1 isSpelled with ⟨first, second, rfl, isFirst, isSecond⟩
    exact ⟨second ++ remaining, ⟨first, isFirst, by simp⟩, second, isSecond, rfl⟩
  · rintro ⟨middle, ⟨first, rfl, rfl⟩, second, rfl, rfl⟩
    exact ⟨first ++ second, by simp, by simp⟩

theorem Spells.length_le {lexemes remaining : List Lexeme} {symbols : List Symbol}
    (spelled : Spells lexemes symbols remaining) : symbols.length ≤ lexemes.length := by
  rcases spelled with ⟨consumed, rfl, rfl⟩
  simp

theorem AreShaped.remaining {lexemes remaining : List Lexeme} {symbols : List Symbol}
    (shaped : AreShaped lexemes) (spelled : Spells lexemes symbols remaining) :
    AreShaped remaining := by
  rcases spelled with ⟨consumed, -, rfl⟩
  intro lexeme member
  exact shaped lexeme (List.mem_append_right consumed member)

theorem AreShaped.tail {lexeme : Lexeme} {rest : List Lexeme}
    (shaped : AreShaped (lexeme :: rest)) : AreShaped rest :=
  fun other member => shaped other (List.mem_cons_of_mem lexeme member)

/-- A lexeme of a kind with only one text spells the symbol of its kind. -/
theorem AreShaped.spells_cons {lexeme : Lexeme} {rest remaining : List Lexeme}
    {symbols : List Symbol} (shaped : AreShaped (lexeme :: rest)) {kind : LexemeKind}
    {spelling : String} (isKind : lexeme.kind = kind) (known : kind.spelling? = some spelling)
    (spelled : Spells rest symbols remaining) :
    Spells (lexeme :: rest) (⟨kind, spelling⟩ :: symbols) remaining :=
  spells_cons_iff.2 ⟨lexeme, rest, rfl,
    (shaped lexeme List.mem_cons_self).symbol_eq isKind known, spelled⟩

end Lexeme

theorem Symbol.name_nil (word : String) : Symbol.name word [] = [⟨.identifier, word⟩] := rfl

theorem Symbol.separate_cons (separator : Symbol) (first : List Symbol) {rest : List (List Symbol)}
    (nonempty : rest ≠ []) :
    separate separator (first :: rest) = first ++ separator :: separate separator rest := by
  cases rest with
  | nil => exact absurd rfl nonempty
  | cons second others => rfl

theorem Symbol.length_le_separate (separator : Symbol) (parts : List (List Symbol)) :
    parts.length ≤ (separate separator parts).length + 1 := by
  induction parts with
  | nil => simp
  | cons first rest ih =>
      cases rest with
      | nil => simp
      | cons second others =>
          rw [separate_cons separator first (by simp)]
          simp only [List.length_append, List.length_cons] at ih ⊢
          omega

theorem Symbol.mem_separate {separator symbol : Symbol} {part : List Symbol}
    {parts : List (List Symbol)} (isPart : part ∈ parts) (member : symbol ∈ part) :
    symbol ∈ separate separator parts := by
  induction parts with
  | nil => cases isPart
  | cons first rest ih =>
      cases rest with
      | nil =>
          cases List.mem_singleton.1 isPart
          exact member
      | cons second others =>
          rw [separate_cons separator first (by simp)]
          rcases List.mem_cons.1 isPart with rfl | later
          · exact List.mem_append_left _ member
          · exact List.mem_append_right _ (List.mem_cons_of_mem _ (ih later))

theorem Symbol.suffixes_add (first second : Nat) :
    suffixes (first + second) = suffixes first ++ suffixes second := by
  induction first with
  | zero => simp [suffixes]
  | succ dims ih => simp [Nat.succ_add, suffixes, ih]

/-- The symbols of type arguments with their brackets, none without arguments. -/
def TypeTree.argumentSymbols (arguments : List TypeTree) : List Symbol :=
  if arguments.isEmpty then []
  else ⟨.angleOpen, "<"⟩ ::
    Symbol.separate ⟨.comma, ","⟩ (arguments.map TypeTree.yield) ++ [⟨.angleClose, ">"⟩]

/-- The symbols of bounds behind their keyword, none without bounds. -/
def NamedTree.boundSymbols (keyword : Symbol) (bounds : List NamedTree) : List Symbol :=
  if bounds.isEmpty then []
  else keyword :: Symbol.separate ⟨.ampersand, "&"⟩ (bounds.map NamedTree.yield)

theorem TypeTree.yields_eq_map (trees : List TypeTree) :
    TypeTree.yields trees = trees.map TypeTree.yield := by
  induction trees with
  | nil => rfl
  | cons tree trees ih => simp [TypeTree.yields, ih]

theorem NamedTree.yields_eq_map (trees : List NamedTree) :
    NamedTree.yields trees = trees.map NamedTree.yield := by
  induction trees with
  | nil => rfl
  | cons tree trees ih => simp [NamedTree.yields, ih]

theorem TypeTree.yield_named (type : NamedTree) : (TypeTree.named type).yield = type.yield := rfl

theorem TypeTree.yield_wildcard (upper lower : List NamedTree) :
    (TypeTree.wildcard upper lower).yield =
      ⟨.question, "?"⟩ :: (NamedTree.boundSymbols ⟨.extendsWord, "extends"⟩ upper ++
        NamedTree.boundSymbols ⟨.superWord, "super"⟩ lower) := by
  simp only [TypeTree.yield, NamedTree.yields_eq_map, NamedTree.boundSymbols, List.cons_append]

theorem NamedTree.yield_mk (first : String) (further : List String) (inner : Nat)
    (arguments : List TypeTree) (outer : Nat) :
    (NamedTree.mk first further inner arguments outer).yield =
      Symbol.name first further ++ (Symbol.suffixes inner ++
        (TypeTree.argumentSymbols arguments ++ Symbol.suffixes outer)) := by
  simp only [NamedTree.yield, TypeTree.yields_eq_map, TypeTree.argumentSymbols, List.append_assoc]

/-- A named type starts with the first segment of its name. -/
theorem NamedTree.exists_yield_eq (tree : NamedTree) :
    ∃ symbols, tree.yield = ⟨.identifier, tree.firstSegment⟩ :: symbols := by
  rcases tree with ⟨first, further, inner, arguments, outer⟩
  exact ⟨_, NamedTree.yield_mk first further inner arguments outer⟩

theorem TypeTree.yield_ne_nil (tree : TypeTree) : tree.yield ≠ [] := by
  cases tree with
  | named type =>
      rcases type.exists_yield_eq with ⟨symbols, isYield⟩
      simp [TypeTree.yield_named, isYield]
  | wildcard upper lower => simp [TypeTree.yield_wildcard]

variable {scope : Scope} {levels : Nat}

theorem TypeTree.meaning?_zero (tree : TypeTree) : tree.meaning? scope 0 = none := by
  cases tree <;> rfl

/-- The bound lies one level deeper than the wildcard that it stands in. -/
def NamedTree.boundMeaning? (scope : Scope) : Nat → NamedTree → Option Ty
  | 0, _ => none
  | levels + 1, tree => tree.meaning? scope levels

theorem TypeTree.meanings?_eq_some_iff {trees : List TypeTree} {types : List Ty} :
    TypeTree.meanings? scope levels trees = some types ↔
      List.Forall₂ (fun tree ty => tree.meaning? scope levels = some ty) trees types := by
  induction trees generalizing types with
  | nil => simp [TypeTree.meanings?, eq_comm]
  | cons tree trees ih =>
      simp only [TypeTree.meanings?, Option.bind_eq_bind, Option.bind_eq_some_iff,
        List.forall₂_cons_left_iff, ih, Option.some.injEq]
      constructor
      · rintro ⟨ty, isFirst, others, isRest, rfl⟩
        exact ⟨ty, others, isFirst, isRest, rfl⟩
      · rintro ⟨ty, others, isFirst, isRest, rfl⟩
        exact ⟨ty, isFirst, others, isRest, rfl⟩

/-- The bounds of a derivation mean what each of them means, one nesting level deeper. -/
theorem NamedTree.meanings?_eq_some_iff {trees : List NamedTree} {types : List Ty} :
    NamedTree.meanings? scope levels trees = some types ↔
      List.Forall₂ (fun tree ty => tree.boundMeaning? scope levels = some ty) trees types := by
  induction trees generalizing types with
  | nil => simp [NamedTree.meanings?, eq_comm]
  | cons tree trees ih =>
      cases levels with
      | zero => simp [NamedTree.meanings?, NamedTree.boundMeaning?, List.forall₂_cons_left_iff]
      | succ levels =>
          simp only [NamedTree.meanings?, Option.bind_eq_bind, Option.bind_eq_some_iff,
            List.forall₂_cons_left_iff, ih, Option.some.injEq, NamedTree.boundMeaning?]
          constructor
          · rintro ⟨ty, isFirst, others, isRest, rfl⟩
            exact ⟨ty, others, isFirst, isRest, rfl⟩
          · rintro ⟨ty, others, isFirst, isRest, rfl⟩
            exact ⟨ty, isFirst, others, isRest, rfl⟩

/-- A wildcard means the wildcard of what its bounds mean. -/
theorem TypeTree.meaning?_wildcard_eq_some_iff {upper lower : List NamedTree} {ty : Ty} :
    (TypeTree.wildcard upper lower).meaning? scope (levels + 1) = some ty ↔
      ∃ uppers lowers,
        List.Forall₂ (fun tree bound => tree.boundMeaning? scope levels = some bound)
          upper uppers ∧
        List.Forall₂ (fun tree bound => tree.boundMeaning? scope levels = some bound)
          lower lowers ∧
        ty = .wildcardOf uppers lowers := by
  simp only [TypeTree.meaning?, Option.bind_eq_bind, Option.bind_eq_some_iff,
    NamedTree.meanings?_eq_some_iff, Option.some.injEq]
  constructor
  · rintro ⟨uppers, areUpper, lowers, areLower, rfl⟩
    exact ⟨uppers, lowers, areUpper, areLower, rfl⟩
  · rintro ⟨uppers, lowers, areUpper, areLower, rfl⟩
    exact ⟨uppers, areUpper, lowers, areLower, rfl⟩

/--
A named type means what its name stands for, applied to its arguments, under as many array
dimensions as it has suffixes.
-/
theorem NamedTree.meaning?_eq_some_iff {first : String} {further : List String}
    {inner outer : Nat} {arguments : List TypeTree} {ty : Ty} :
    (NamedTree.mk first further inner arguments outer).meaning? scope levels = some ty ↔
      ∃ referent types element, scope.resolve (first :: further) = .ok referent ∧
        List.Forall₂ (fun tree ty => tree.meaning? scope levels = some ty) arguments types ∧
        referent.applied? scope.catalog types = some element ∧ inner + outer ≤ 255 ∧
        ty = Ty.arrayOfTimes (inner + outer) element := by
  have isReferent : ∀ referent, (scope.resolve (first :: further)).toOption = some referent ↔
      scope.resolve (first :: further) = .ok referent := by
    intro referent
    cases scope.resolve (first :: further) <;> simp [Except.toOption]
  simp only [NamedTree.meaning?, Option.bind_eq_bind, Option.bind_eq_some_iff, isReferent,
    TypeTree.meanings?_eq_some_iff, Ty.suffixed?, Option.ite_none_right_eq_some,
    Option.some.injEq]
  constructor
  · rintro ⟨referent, resolved, types, areTypes, element, isElement, fits, rfl⟩
    exact ⟨referent, types, element, resolved, areTypes, isElement, fits, rfl⟩
  · rintro ⟨referent, types, element, resolved, areTypes, isElement, fits, rfl⟩
    exact ⟨referent, resolved, types, areTypes, element, isElement, fits, rfl⟩

/--
What holds of the meanings of derivations, if it is kept from the parts to the whole. A bound is a
named type with the levels that the wildcard has left.
-/
theorem TypeTree.meaning?_induct {onNamed onBound : Nat → NamedTree → Ty → Prop}
    {onType : Nat → TypeTree → Ty → Prop}
    (named : ∀ {levels first further inner arguments outer referent types element},
      scope.resolve (first :: further) = .ok referent →
      List.Forall₂ (onType levels) arguments types →
      referent.applied? scope.catalog types = some element → inner + outer ≤ 255 →
      onNamed levels ⟨first, further, inner, arguments, outer⟩
        (Ty.arrayOfTimes (inner + outer) element))
    (bound : ∀ {levels tree ty}, onNamed levels tree ty → onBound (levels + 1) tree ty)
    (type : ∀ {levels tree ty}, onNamed levels tree ty → onType (levels + 1) (.named tree) ty)
    (wildcard : ∀ {levels upper lower uppers lowers},
      List.Forall₂ (onBound levels) upper uppers → List.Forall₂ (onBound levels) lower lowers →
      onType (levels + 1) (.wildcard upper lower) (Ty.wildcardOf uppers lowers))
    {tree : TypeTree} {ty : Ty} (isMeaning : tree.meaning? scope levels = some ty) :
    onType levels tree ty := by
  induction levels using Nat.strongRecOn generalizing tree ty with
  | ind levels ih =>
      have ofNamed : ∀ inner < levels, ∀ (tree : NamedTree) ty,
          tree.meaning? scope inner = some ty → onNamed inner tree ty := by
        rintro inner deeper ⟨first, further, dims, arguments, outer⟩ ty isMeaning
        rcases NamedTree.meaning?_eq_some_iff.1 isMeaning with
          ⟨referent, types, element, resolved, areMeanings, isElement, fits, rfl⟩
        exact named resolved (areMeanings.imp fun _ _ => ih inner deeper) isElement fits
      cases levels with
      | zero => simp [TypeTree.meaning?_zero] at isMeaning
      | succ levels =>
          cases tree with
          | named tree => exact type (ofNamed levels (Nat.lt_succ_self levels) tree ty isMeaning)
          | wildcard upper lower =>
              have ofBound : ∀ (tree : NamedTree) ty,
                  tree.boundMeaning? scope levels = some ty → onBound levels tree ty := by
                intro tree ty isBound
                cases levels with
                | zero => cases isBound
                | succ inner => exact bound (ofNamed inner (by omega) tree ty isBound)
              rcases TypeTree.meaning?_wildcard_eq_some_iff.1 isMeaning with
                ⟨uppers, lowers, areUpper, areLower, rfl⟩
              exact wildcard (areUpper.imp ofBound) (areLower.imp ofBound)

end NominalTypes
