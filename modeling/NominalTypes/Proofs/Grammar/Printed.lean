import NominalTypes.Proofs.Catalog.Owners
import NominalTypes.Proofs.Grammar.Completeness
import NominalTypes.Proofs.Grammar.Writing
import NominalTypes.Proofs.Ty.Printing

/-!
# Printed types are read back

The text of a type that was read is a writing of a derivation of its own: the names of the style in
the place of the names that were resolved, suffixes behind the arguments, no bounds where the upper
bound is the default one. Where these names stand for the same again, the derivation denotes the
same type, but for owners that only the catalog which it is read in knows. It needs no more nesting
levels than the one that was read, so that reading the text gives the type again. What is left to a
style is how it writes names.
-/

namespace NominalTypes

/-- The identifiers among the symbols are read as such where they are written. -/
def Symbol.AreReadable (symbols : List Symbol) : Prop :=
  ∀ symbol ∈ symbols, symbol.kind = .identifier →
    Lexeme.IsWriting [⟨.identifier, symbol.text⟩] symbol.text.toList

namespace Symbol

/-- The identifiers of a text are readable, since each of them was one lexeme there. -/
theorem areReadable_significant (text : String) :
    AreReadable ((Lexeme.significant text).map Lexeme.symbol) := by
  intro symbol member isIdentifier
  rcases List.mem_map.1 member with ⟨lexeme, isLexeme, rfl⟩
  exact (Lexeme.hasShape_of_mem_significant isLexeme).isWriting isIdentifier

theorem areReadable_cons_of {first : Symbol} {symbols : List Symbol}
    (readable : AreReadable (first :: symbols)) : AreReadable symbols :=
  (List.forall_mem_cons.1 readable).2

theorem areReadable_append {front back : List Symbol} :
    AreReadable (front ++ back) ↔ AreReadable front ∧ AreReadable back :=
  List.forall_mem_append

theorem areReadable_of_separate {separator : Symbol} {parts : List (List Symbol)}
    (readable : AreReadable (separate separator parts)) :
    ∀ part ∈ parts, AreReadable part := by
  intro part isPart symbol member
  exact readable symbol (mem_separate isPart member)

theorem areReadable_of_argumentSymbols {arguments : List TypeTree}
    (readable : AreReadable (TypeTree.argumentSymbols arguments)) :
    ∀ argument ∈ arguments, AreReadable argument.yield := by
  cases arguments with
  | nil => simp
  | cons first rest =>
      simp only [TypeTree.argumentSymbols, List.isEmpty_cons, Bool.false_eq_true, if_false,
        List.cons_append] at readable
      have separated := (areReadable_append.1 (areReadable_cons_of readable)).1
      exact List.forall_mem_map.1 (areReadable_of_separate separated)

theorem areReadable_of_boundSymbols {keyword : Symbol} {bounds : List NamedTree}
    (readable : AreReadable (NamedTree.boundSymbols keyword bounds)) :
    ∀ bound ∈ bounds, AreReadable bound.yield := by
  cases bounds with
  | nil => simp
  | cons first rest =>
      simp only [NamedTree.boundSymbols, List.isEmpty_cons, Bool.false_eq_true, if_false]
        at readable
      exact List.forall_mem_map.1 (areReadable_of_separate (areReadable_cons_of readable))

end Symbol

namespace Ty

variable (style : NameStyle)

/-- The text of type arguments with their brackets, empty without arguments. -/
def argumentText (arguments : List Ty) : String :=
  if arguments.isEmpty then ""
  else "<" ++ String.intercalate ", " (arguments.map (renderPart style)) ++ ">"

/-- The text of bounds behind their keyword, empty without bounds. -/
def boundText (keyword : String) (bounds : List Ty) : String :=
  if bounds.isEmpty then ""
  else " " ++ keyword ++ " " ++ String.intercalate " & " (bounds.map (renderPart style))

/-- The upper bounds that are written: none in the place of the default one. -/
def writtenBounds (bounds : List Ty) : List Ty :=
  if isDefaultBounds bounds then [] else bounds

theorem boundsOrObject_ne_nil (bounds : List Ty) : boundsOrObject bounds ≠ [] := by
  cases bounds <;> simp [boundsOrObject]

/-- Bounds that were read are written again, or none at all where they are the default ones. -/
theorem writtenBounds_boundsOrObject (bounds : List Ty) :
    writtenBounds (boundsOrObject bounds) = [] ∨
      writtenBounds (boundsOrObject bounds) = bounds := by
  simp only [writtenBounds]
  split
  · exact Or.inl rfl
  · next written =>
    cases bounds with
    | nil => exact absurd rfl written
    | cons first rest => exact Or.inr rfl

/-- A wildcard read from its written bounds has all its upper bounds, the default one included. -/
theorem wildcardOf_writtenBounds {upper : List Ty} (nonempty : upper ≠ []) (lower : List Ty) :
    wildcardOf (writtenBounds upper) lower = .wildcard upper lower := by
  simp only [writtenBounds]
  split
  · next isDefault =>
    rw [isDefaultBounds_iff.1 isDefault]
    rfl
  · cases upper with
    | nil => exact absurd rfl nonempty
    | cons first rest => rfl

/-- A wildcard is a question mark with the texts of its written bounds behind it. -/
theorem renderPart_wildcard {upper : List Ty} (nonempty : upper ≠ []) (lower : List Ty) :
    (Ty.wildcard upper lower).renderPart style =
      "?" ++ boundText style "extends" (writtenBounds upper) ++ boundText style "super" lower := by
  have isExtends : boundText style "extends" (writtenBounds upper) =
      if isDefaultBounds upper then ""
      else " extends " ++ String.intercalate " & " (upper.map (renderPart style)) := by
    simp only [boundText, writtenBounds]
    split
    · rfl
    · simp only [List.isEmpty_iff, nonempty, if_false]
      rfl
  rw [isExtends]
  simp only [renderPart, renderParts_eq_map]
  rfl

end Ty

/-- The text of a class with its arguments; the owner of a type that is read is not written. -/
theorem Referent.renderPart_applied? (style : NameStyle) {catalog : Catalog} {referent : Referent}
    {arguments : List Ty} {element : Ty}
    (isElement : referent.applied? catalog arguments = some element) :
    element.renderPart style =
      referent.toTy.renderPart style ++ Ty.argumentText style arguments := by
  cases arguments with
  | nil =>
      cases isElement
      exact (String.append_empty).symm
  | cons first rest =>
      cases referent with
      | ofVariable parameter => cases isElement
      | ofClass raw =>
          simp only [Referent.applied?, Option.ite_none_right_eq_some, Option.some.injEq]
            at isElement
          rcases isElement with ⟨-, rfl⟩
          have unwritten : Ty.renderOwner style ((catalog.enclosing? raw).map .nominal) =
              none := by
            cases catalog.enclosing? raw <;> rfl
          simp only [Ty.renderPart, unwritten, Ty.renderParts_eq_map, Ty.argumentText,
            List.isEmpty_cons, Bool.false_eq_true, if_false, String.append_assoc]
          rfl

namespace Lexeme

variable {style : NameStyle}

/-- Each derivation is written as the text of the type in the style. -/
def AreWritten (style : NameStyle) {tree : Type} (yield : tree → List Symbol) (trees : List tree)
    (types : List Ty) : Prop :=
  List.Forall₂ (fun tree ty => IsWriting (yield tree) (Ty.renderPart style ty).toList)
    trees types

/--
Writings with separators between them are a writing of the symbols with separators, if the separator
ends words.
-/
theorem AreWritten.isWriting_separate {tree : Type} {yield : tree → List Symbol}
    {trees : List tree} {types : List Ty} (written : AreWritten style yield trees types)
    {separator : Symbol} {between : String}
    (separates : ∀ written characters, IsWriting written characters →
      IsWriting (separator :: written) (between.toList ++ characters))
    (ends : ∀ characters, EndsWord (between.toList ++ characters)) :
    IsWriting (Symbol.separate separator (trees.map yield))
      (String.intercalate between (types.map (Ty.renderPart style))).toList := by
  apply Lexeme.isWriting_separate separates ends
  rw [List.forall₂_map_left_iff, List.forall₂_map_right_iff]
  exact written

/-- Writings of the arguments make a writing of the argument list with its brackets. -/
theorem isWriting_arguments {trees : List TypeTree} {types : List Ty}
    (written : AreWritten style TypeTree.yield trees types) :
    IsWriting (TypeTree.argumentSymbols trees) (Ty.argumentText style types).toList := by
  have items : IsWriting (Symbol.separate ⟨.comma, ","⟩ (trees.map TypeTree.yield))
      (String.intercalate ", " (types.map (Ty.renderPart style))).toList := by
    apply written.isWriting_separate
    · intro written characters writing
      exact (writing.blank rfl).punctuation rfl
    · intro characters
      exact endsWord_cons.2 (by decide)
  cases written with
  | nil => exact isWriting_nil
  | cons first rest =>
      have closing : IsWriting [⟨.angleClose, ">"⟩] ['>'] := isWriting_nil.punctuation rfl
      have whole := (items.append closing (endsWord_cons.2 (by decide))).punctuation
        (show punctuation? '<' = some .angleOpen from rfl)
      simp only [Ty.argumentText, List.isEmpty_cons, Bool.false_eq_true, if_false,
        String.toList_append, List.append_assoc]
      exact whole

/-- Writings of the bounds make a writing of the bounds behind their keyword. -/
theorem isWriting_bounds {trees : List NamedTree} {types : List Ty}
    (written : AreWritten style NamedTree.yield trees types) {word : String}
    (isWord : IsWord word.toList) :
    IsWriting (NamedTree.boundSymbols ⟨wordKind word.toList, word⟩ trees)
      (Ty.boundText style word types).toList := by
  have items : IsWriting (Symbol.separate ⟨.ampersand, "&"⟩ (trees.map NamedTree.yield))
      (String.intercalate " & " (types.map (Ty.renderPart style))).toList := by
    apply written.isWriting_separate
    · intro written characters writing
      exact ((writing.blank rfl).punctuation rfl).blank rfl
    · intro characters
      exact endsWord_cons.2 (by decide)
  cases written with
  | nil => exact isWriting_nil
  | cons first rest =>
      have isBlank : isBlank ' ' = true := rfl
      have behind := (isWriting_word isWord).append (items.blank isBlank)
        (endsWord_cons.2 (by decide))
      rw [String.ofList_toList] at behind
      simp only [Ty.boundText, List.isEmpty_cons, Bool.false_eq_true, if_false,
        String.toList_append, List.append_assoc]
      exact behind.blank isBlank

theorem endsWord_argumentText (style : NameStyle) (types : List Ty) :
    EndsWord (Ty.argumentText style types).toList := by
  simp only [Ty.argumentText]
  split
  · exact endsWord_nil
  · simp only [String.toList_append]
    exact endsWord_cons.2 (by decide)

theorem endsWord_boundText (style : NameStyle) (word : String) (types : List Ty) :
    EndsWord (Ty.boundText style word types).toList := by
  simp only [Ty.boundText]
  split
  · exact endsWord_nil
  · simp only [String.toList_append]
    exact endsWord_cons.2 (by decide)

end Lexeme

/--
Where a readable derivation means a type, there is one that means it by the second relation and is
written as the text of the type in the style.
-/
def HasWritings (style : NameStyle) {tree : Type} (yield : tree → List Symbol)
    (means meansAgain : tree → Ty → Prop) : Prop :=
  ∀ read ty, Symbol.AreReadable (yield read) → means read ty →
    ∃ written, meansAgain written ty ∧
      Lexeme.IsWriting (yield written) (ty.renderPart style).toList

theorem HasWritings.exists_list {style : NameStyle} {tree : Type} {yield : tree → List Symbol}
    {means meansAgain : tree → Ty → Prop} (writings : HasWritings style yield means meansAgain)
    {trees : List tree} {types : List Ty} (areMeanings : List.Forall₂ means trees types)
    (readable : ∀ tree ∈ trees, Symbol.AreReadable (yield tree)) :
    ∃ written, List.Forall₂ meansAgain written types ∧
      Lexeme.AreWritten style yield written types := by
  induction areMeanings with
  | nil => exact ⟨[], .nil, .nil⟩
  | @cons tree ty trees types isMeaning areMeanings ih =>
      rcases List.forall_mem_cons.1 readable with ⟨firstReadable, othersReadable⟩
      rcases writings tree ty firstReadable isMeaning with ⟨first, isFirst, firstWriting⟩
      rcases ih othersReadable with ⟨rest, areRest, restWritings⟩
      exact ⟨first :: rest, .cons isFirst areRest, .cons firstWriting restWritings⟩

/--
A wildcard is written without its upper bounds, where these are the default: reading it puts them in
again.
-/
theorem TypeTree.exists_written_wildcard {scope target : Scope} {style : NameStyle} {levels : Nat}
    (writings : HasWritings style NamedTree.yield
      (fun tree ty => tree.boundMeaning? scope levels = some ty)
      (fun tree ty => tree.boundMeaning? target levels = some (target.catalog.reown ty)))
    {upper lower : List NamedTree} {ty : Ty}
    (readable : Symbol.AreReadable (TypeTree.wildcard upper lower).yield)
    (isMeaning : (TypeTree.wildcard upper lower).meaning? scope (levels + 1) = some ty) :
    ∃ written : TypeTree,
      written.meaning? target (levels + 1) = some (target.catalog.reown ty) ∧
        Lexeme.IsWriting written.yield (ty.renderPart style).toList := by
  rw [yield_wildcard] at readable
  rcases Symbol.areReadable_append.1 (Symbol.areReadable_cons_of readable) with
    ⟨upperReadable, lowerReadable⟩
  rcases meaning?_wildcard_eq_some_iff.1 isMeaning with
    ⟨uppers, lowers, upperMeanings, lowerMeanings, rfl⟩
  have nonempty := Ty.boundsOrObject_ne_nil uppers
  have writtenUppers : ∃ written, List.Forall₂
      (fun tree ty => NamedTree.boundMeaning? target levels tree =
        some (target.catalog.reown ty)) written
        (Ty.writtenBounds (Ty.boundsOrObject uppers)) ∧
      Lexeme.AreWritten style NamedTree.yield written
        (Ty.writtenBounds (Ty.boundsOrObject uppers)) := by
    rcases Ty.writtenBounds_boundsOrObject uppers with none | all
    · rw [none]
      exact ⟨[], .nil, .nil⟩
    · rw [all]
      exact writings.exists_list upperMeanings (Symbol.areReadable_of_boundSymbols upperReadable)
  rcases writtenUppers with ⟨writtenUpper, areUpper, upperWritings⟩
  rcases writings.exists_list lowerMeanings
    (Symbol.areReadable_of_boundSymbols lowerReadable) with
    ⟨writtenLower, areLower, lowerWritings⟩
  have isWildcard : Ty.wildcardOf uppers lowers =
      Ty.wildcardOf (Ty.writtenBounds (Ty.boundsOrObject uppers)) lowers :=
    (Ty.wildcardOf_writtenBounds nonempty lowers).symm
  refine ⟨.wildcard writtenUpper writtenLower, ?_, ?_⟩
  · rw [isWildcard, Catalog.reown_wildcardOf]
    exact meaning?_wildcard_eq_some_iff.2 ⟨_, _, List.forall₂_map_right_iff.2 areUpper,
      List.forall₂_map_right_iff.2 areLower, rfl⟩
  · have upperWriting := Lexeme.isWriting_bounds upperWritings Lexeme.isWord_extends
    have lowerWriting := Lexeme.isWriting_bounds lowerWritings Lexeme.isWord_super
    have boundsWriting := upperWriting.append lowerWriting
      (Lexeme.endsWord_boundText style "super" lowers)
    rw [yield_wildcard, Ty.wildcardOf, Ty.renderPart_wildcard style nonempty, String.append_assoc,
      String.toList_append, String.toList_append]
    exact boundsWriting.punctuation rfl

/--
What a name stands for is written as a name that stands for it in the target scope, and it takes as
many arguments there.
-/
structure Scope.WritesInto (scope target : Scope) (style : NameStyle) : Prop where
  keepsArity : scope.catalog.KeepsArity target.catalog
  exists_name : ∀ {first : String} {further : List String} {referent : Referent},
    scope.resolve (first :: further) = .ok referent →
      Symbol.AreReadable (Symbol.name first further) →
        ∃ head segments, target.resolve (head :: segments) = .ok referent ∧
          Lexeme.IsWriting (Symbol.name head segments) (referent.toTy.renderPart style).toList

section

variable {scope target : Scope} {style : NameStyle} (writes : scope.WritesInto target style)

include writes

/-- A named type is written with its suffixes behind its arguments. -/
theorem Scope.WritesInto.hasWritings_named {levels : Nat}
    (writings : HasWritings style TypeTree.yield
      (fun tree ty => tree.meaning? scope levels = some ty)
      (fun tree ty => tree.meaning? target levels = some (target.catalog.reown ty))) :
    HasWritings style NamedTree.yield (fun tree ty => tree.meaning? scope levels = some ty)
      (fun tree ty => tree.meaning? target levels = some (target.catalog.reown ty)) := by
  intro tree ty readable isMeaning
  rcases tree with ⟨first, further, inner, arguments, outer⟩
  rw [NamedTree.yield_mk] at readable
  rcases NamedTree.meaning?_eq_some_iff.1 isMeaning with
      ⟨referent, types, element, resolved, areMeanings, isElement, fits, rfl⟩
  rcases Symbol.areReadable_append.1 readable with ⟨nameReadable, readable⟩
  rcases Symbol.areReadable_append.1 readable with ⟨-, readable⟩
  rcases Symbol.areReadable_append.1 readable with ⟨argumentsReadable, -⟩
  rcases writes.exists_name resolved nameReadable with
      ⟨head, segments, resolvedAgain, nameWriting⟩
  rcases writings.exists_list areMeanings
      (Symbol.areReadable_of_argumentSymbols argumentsReadable) with
      ⟨written, areWritten, argumentWritings⟩
  refine ⟨⟨head, segments, 0, written, inner + outer⟩, ?_, ?_⟩
  · exact NamedTree.meaning?_eq_some_iff.2 ⟨referent, _, _, resolvedAgain,
      List.forall₂_map_right_iff.2 areWritten, writes.keepsArity.applied? isElement, by omega,
      by rw [Nat.zero_add, Catalog.reown_arrayOfTimes]⟩
  · rw [NamedTree.yield_mk, Ty.renderPart_arrayOfTimes,
      Referent.renderPart_applied? style isElement, String.toList_append, String.toList_append,
      List.append_assoc]
    have argumentsWriting := Lexeme.isWriting_arguments argumentWritings
    have suffixesWriting := Lexeme.isWriting_suffixes (inner + outer)
    have suffixesEnd := Lexeme.endsWord_arraySuffix (inner + outer)
    exact nameWriting.append (argumentsWriting.append suffixesWriting suffixesEnd)
      ((Lexeme.endsWord_argumentText style types).append suffixesEnd)

/-- A bound is written as a named type of the nesting level below its own. -/
theorem Scope.WritesInto.hasWritings_bound {levels : Nat}
    (writings : ∀ inner < levels,
      HasWritings style TypeTree.yield (fun tree ty => tree.meaning? scope inner = some ty)
        (fun tree ty => tree.meaning? target inner = some (target.catalog.reown ty))) :
    HasWritings style NamedTree.yield (fun tree ty => tree.boundMeaning? scope levels = some ty)
      (fun tree ty => tree.boundMeaning? target levels = some (target.catalog.reown ty)) := by
  cases levels with
  | zero =>
      intro tree ty readable isMeaning
      cases isMeaning
  | succ inner => exact writes.hasWritings_named (writings inner (Nat.lt_succ_self inner))

/-- What is read with some nesting levels is written with the same number of levels. -/
theorem Scope.WritesInto.hasWritings (levels : Nat) :
    HasWritings style TypeTree.yield (fun tree ty => tree.meaning? scope levels = some ty)
      (fun tree ty => tree.meaning? target levels = some (target.catalog.reown ty)) := by
  induction levels using Nat.strongRecOn with
  | ind levels ih =>
      intro tree ty readable isMeaning
      cases levels with
      | zero => simp [TypeTree.meaning?_zero] at isMeaning
      | succ levels =>
          cases tree with
          | named tree =>
              rcases writes.hasWritings_named (ih levels (Nat.lt_succ_self levels)) tree ty
                readable isMeaning with ⟨written, isWritten, writing⟩
              exact ⟨.named written, isWritten, writing⟩
          | wildcard upper lower =>
              apply TypeTree.exists_written_wildcard _ readable isMeaning
              apply writes.hasWritings_bound
              intro inner deeper
              exact ih inner (Nat.lt_succ_of_lt deeper)

/-- The text of a type that was read is read as the type with the owners that are known there. -/
theorem Scope.WritesInto.parse_renderPart {depth : Nat} {text : String} {ty : Ty}
    (read : scope.parse depth text = .ok ty) :
    target.parse depth (ty.renderPart style) = .ok (target.catalog.reown ty) := by
  rcases exists_tree_of_parse read with ⟨tree, isYield, isMeaning⟩
  have readable : Symbol.AreReadable tree.yield := by
    rw [isYield]
    exact Symbol.areReadable_significant text
  rcases writes.hasWritings depth tree ty readable isMeaning with
      ⟨written, isWritten, writing⟩
  apply parse_of_tree _ isWritten
  rw [Lexeme.significant_map_symbol]
  exact writing.symbols_eq.symm

end

/-- What a name stands for is written as a name that stands for it in the target scope. -/
structure Scope.WritesNames (scope target : Scope) (style : NameStyle) : Prop where
  sameCatalog : target.catalog = scope.catalog
  exists_name : ∀ {first : String} {further : List String} {referent : Referent},
    scope.resolve (first :: further) = .ok referent →
      Symbol.AreReadable (Symbol.name first further) →
        ∃ head segments, target.resolve (head :: segments) = .ok referent ∧
          Lexeme.IsWriting (Symbol.name head segments) (referent.toTy.renderPart style).toList

section

variable {scope target : Scope} {style : NameStyle} (writes : scope.WritesNames target style)

include writes

theorem Scope.WritesNames.writesInto : scope.WritesInto target style where
  keepsArity := fun _ _ => by rw [writes.sameCatalog]
  exists_name := writes.exists_name

theorem Scope.WritesNames.hasWritings (levels : Nat) :
    HasWritings style TypeTree.yield (fun tree ty => tree.meaning? scope levels = some ty)
      (fun tree ty => tree.meaning? target levels = some ty) := by
  intro tree ty readable isMeaning
  rcases writes.writesInto.hasWritings levels tree ty readable isMeaning with
      ⟨written, isWritten, writing⟩
  rw [writes.sameCatalog, (isDenotable_of_meaning? isMeaning).reown_eq_self] at isWritten
  exact ⟨written, isWritten, writing⟩

/-- The text of a type that was read is read as the type in the target scope. -/
theorem Scope.WritesNames.parse_renderPart {depth : Nat} {text : String} {ty : Ty}
    (read : scope.parse depth text = .ok ty) :
    target.parse depth (ty.renderPart style) = .ok ty := by
  have readAgain := writes.writesInto.parse_renderPart read
  rwa [writes.sameCatalog, (isDenotable_of_parse read).reown_eq_self] at readAgain

end

end NominalTypes
