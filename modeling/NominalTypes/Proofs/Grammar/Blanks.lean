import NominalTypes.Proofs.Grammar.Repetition
import NominalTypes.Proofs.Grammar.RoundTrip

/-!
# Blanks between lexemes

A reader looks at the kinds and texts of lexemes. It takes their offsets only to say where something
unexpected stands. So two texts whose lexemes other than blanks have the same kinds and texts are
read in the same way: every reader gives the same value and leaves alike lexemes, or it fails for
the same cause. The offset of that cause is all in which blanks make a difference.
-/

namespace NominalTypes

/-- The cause without the offset in the text that it may be about. -/
def TypeError.withoutOffset : TypeError → TypeError
  | .unexpected _ expected found => .unexpected 0 expected found
  | cause => cause

/-- The lexemes have the same kinds and texts, one by one. -/
abbrev Lexeme.AreAlike : List Lexeme → List Lexeme → Prop :=
  List.Forall₂ fun left right => left.symbol = right.symbol

namespace Grammar

open Lexeme

variable {result : Type}

/-- The same was read and alike lexemes remain, or the cause of the failure is the same. -/
inductive Agree : Except TypeError (result × List Lexeme) →
    Except TypeError (result × List Lexeme) → Prop where
  | ok (value : result) {left right : List Lexeme} (alike : AreAlike left right) :
      Agree (.ok (value, left)) (.ok (value, right))
  | error {cause other : TypeError} (same : cause.withoutOffset = other.withoutOffset) :
      Agree (.error cause) (.error other)

/-- Alike lexemes are read alike by the two readers. -/
def ReadAlike (read other : LexemeReader result) : Prop :=
  ∀ left right, AreAlike left right → Agree (read left) (other right)

theorem kind_eq_of_symbol_eq {left right : Lexeme} (same : left.symbol = right.symbol) :
    left.kind = right.kind :=
  congrArg Symbol.kind same

/-- Readings that agree can be gone on with by readings that agree on what is left. -/
theorem Agree.bind {value : Type} {step other : Except TypeError (value × List Lexeme)}
    {next otherNext : value × List Lexeme → Except TypeError (result × List Lexeme)}
    (agree : Agree step other)
    (nexts : ∀ value left right, step = .ok (value, left) → AreAlike left right →
      Agree (next (value, left)) (otherNext (value, right))) :
    Agree (step >>= next) (other >>= otherNext) := by
  cases agree with
  | ok value alike => exact nexts value _ _ rfl alike
  | error same => exact .error same

/-- In front of alike lexemes the same is found unexpected. -/
theorem unexpected_alike (length otherLength : Nat) (expected : Expectation)
    {left right : List Lexeme} (alike : AreAlike left right) :
    (unexpected length expected left).withoutOffset =
      (unexpected otherLength expected right).withoutOffset := by
  cases alike with
  | nil => rfl
  | @cons first other _ _ same _ =>
      have sameText : first.text = other.text := congrArg Symbol.text same
      simp [unexpected, TypeError.withoutOffset, finding, kind_eq_of_symbol_eq same, sameText]

theorem startsWith_alike (kind : LexemeKind) {left right : List Lexeme}
    (alike : AreAlike left right) : startsWith kind left = startsWith kind right := by
  cases alike with
  | nil => rfl
  | cons same _ => simp [startsWith, kind_eq_of_symbol_eq same]

section

variable (length otherLength : Nat)

theorem expect_readAlike (kind : LexemeKind) :
    ReadAlike (expect length kind) (expect otherLength kind) := by
  intro left right alike
  cases alike with
  | nil => exact .error rfl
  | @cons first other _ _ same alike =>
      have sameText : first.text = other.text := congrArg Symbol.text same
      simp only [expect, kind_eq_of_symbol_eq same, sameText]
      split
      · exact .ok other.text alike
      · exact .error (unexpected_alike _ _ _ (.cons same alike))

end

theorem RepeatsPairs.readAlike {length otherLength : Nat} {opening closing : LexemeKind}
    {combine : String → result → result} {nothing : result} {read other : LexemeReader result}
    (pairs : RepeatsPairs length opening closing combine nothing read)
    (others : RepeatsPairs otherLength opening closing combine nothing other) :
    ReadAlike read other := by
  intro left
  induction left using pairs_induction length opening closing with
  | stop left starts =>
      intro right alike
      rw [pairs.stop left starts, others.stop right (startsWith_alike opening alike ▸ starts)]
      exact .ok nothing alike
  | go lexeme rest isOpening ih =>
      intro right alike
      cases alike with
      | cons same alike =>
          rw [pairs.go _ _ isOpening, others.go _ _ (kind_eq_of_symbol_eq same ▸ isOpening)]
          refine (expect_readAlike length otherLength closing _ _ alike).bind ?_
          intro text behind otherBehind isClosing alikeBehind
          refine (ih text behind isClosing otherBehind alikeBehind).bind ?_
          intro value _ _ _ alike
          exact .ok (combine text value) alike

theorem qualifiedName_readAlike (length otherLength : Nat) :
    ReadAlike (qualifiedName length) (qualifiedName otherLength) := by
  intro left right alike
  refine (expect_readAlike length otherLength .identifier left right alike).bind ?_
  intro first rest otherRest _ alike
  refine ((furtherSegments_repeatsPairs length).readAlike
    (furtherSegments_repeatsPairs otherLength) rest otherRest alike).bind ?_
  intro further _ _ _ alike
  exact .ok (first :: further) alike

theorem arraySuffixes_readAlike (length otherLength : Nat) :
    ReadAlike (arraySuffixes length) (arraySuffixes otherLength) :=
  (arraySuffixes_repeatsPairs length).readAlike (arraySuffixes_repeatsPairs otherLength)

theorem separated_readAlike {read other : LexemeReader result} (readAlike : ReadAlike read other)
    (separator : LexemeKind) (count : Nat) :
    ReadAlike (separated separator read count) (separated separator other count) := by
  induction count with
  | zero =>
      intro left right alike
      refine (readAlike left right alike).bind ?_
      intro first _ _ _ alike
      exact .ok [first] alike
  | succ count ih =>
      intro left right alike
      refine (readAlike left right alike).bind ?_
      intro first rest otherRest _ alike
      cases alike with
      | nil => exact .ok [first] .nil
      | cons same alike =>
          simp only [kind_eq_of_symbol_eq same]
          split
          · refine (ih _ _ alike).bind ?_
            intro further _ _ _ alike
            exact .ok (first :: further) alike
          · exact .ok [first] (.cons same alike)

section

variable {read other : LexemeReader Ty} (readAlike : ReadAlike read other)

include readAlike

theorem bound_readAlike : ReadAlike (bound read) (bound other) := by
  intro left right alike
  simp only [bound, startsWith_alike .question alike]
  split
  · exact .error rfl
  · exact readAlike left right alike

theorem boundsBehind_readAlike (keyword : LexemeKind) :
    ReadAlike (boundsBehind keyword read) (boundsBehind keyword other) := by
  intro left right alike
  cases alike with
  | nil => exact .ok [] .nil
  | cons same alike =>
      simp only [boundsBehind, kind_eq_of_symbol_eq same, alike.length_eq]
      split
      · exact separated_readAlike (bound_readAlike readAlike) .ampersand _ _ _ alike
      · exact .ok [] (.cons same alike)

theorem wildcardBounds_readAlike : ReadAlike (wildcardBounds read) (wildcardBounds other) := by
  intro left right alike
  refine (boundsBehind_readAlike readAlike .extendsWord left right alike).bind ?_
  intro upper rest otherRest _ alike
  refine (boundsBehind_readAlike readAlike .superWord rest otherRest alike).bind ?_
  intro lower _ _ _ alike
  exact .ok (Ty.wildcardOf upper lower) alike

variable (scope : Scope) (length otherLength : Nat)

theorem application_readAlike (referent : Referent) :
    ReadAlike (application scope length read referent)
      (application scope otherLength other referent) := by
  intro left right alike
  cases alike with
  | nil => exact .ok referent.toTy .nil
  | cons same alike =>
      simp only [application, kind_eq_of_symbol_eq same, alike.length_eq]
      split
      · refine (separated_readAlike readAlike .comma _ _ _ alike).bind ?_
        intro arguments behind otherBehind _ alike
        refine (expect_readAlike length otherLength .angleClose behind otherBehind alike).bind ?_
        intro _ _ _ _ alike
        cases applied scope arguments referent with
        | error cause => exact .error rfl
        | ok ty => exact .ok ty alike
      · exact .ok referent.toTy (.cons same alike)

theorem namedType_readAlike :
    ReadAlike (namedType scope length read) (namedType scope otherLength other) := by
  intro left right alike
  refine (qualifiedName_readAlike length otherLength left right alike).bind ?_
  intro segments behindName otherBehindName _ alike
  refine (arraySuffixes_readAlike length otherLength _ _ alike).bind ?_
  intro inner behindSuffixes otherBehindSuffixes _ alike
  cases resolved : scope.resolve segments with
  | error cause => exact .error rfl
  | ok referent =>
      refine (application_readAlike readAlike scope length otherLength referent _ _ alike).bind ?_
      intro ty behindArguments otherBehindArguments _ alike
      refine (arraySuffixes_readAlike length otherLength _ _ alike).bind ?_
      intro outer _ _ _ alike
      simp only
      split
      · exact .error rfl
      · exact .ok _ alike

end

/-- Types are read alike on every number of nesting levels. -/
theorem type_readAlike (scope : Scope) (length otherLength depth : Nat) :
    ReadAlike (type scope length depth) (type scope otherLength depth) := by
  induction depth with
  | zero => exact fun _ _ _ => .error rfl
  | succ depth ih =>
      intro left right alike
      cases alike with
      | nil => exact namedType_readAlike ih scope length otherLength [] [] .nil
      | cons same alike =>
          simp only [type, kind_eq_of_symbol_eq same]
          split
          · exact wildcardBounds_readAlike ih _ _ alike
          · exact namedType_readAlike ih scope length otherLength _ _ (.cons same alike)

/-- From alike lexemes whole texts have the same type, or fail for the same cause. -/
theorem root_alike (scope : Scope) (length otherLength depth : Nat) {left right : List Lexeme}
    (alike : AreAlike left right) :
    (root scope length depth left).mapError TypeError.withoutOffset =
      (root scope otherLength depth right).mapError TypeError.withoutOffset := by
  cases alike with
  | nil => rfl
  | @cons first other rest others same alike =>
      have agree := type_readAlike scope length otherLength depth _ _ (.cons same alike)
      simp only [root]
      generalize type scope length depth (first :: rest) = step at agree ⊢
      generalize type scope otherLength depth (other :: others) = otherStep at agree ⊢
      cases agree with
      | error sameCause => exact congrArg Except.error sameCause
      | ok ty alike =>
          cases alike with
          | nil => rfl
          | cons same alike =>
              exact congrArg Except.error (unexpected_alike _ _ .endOfInput (.cons same alike))

end Grammar

namespace Scope

/--
Texts with the same significant lexemes, compared by their kinds and texts, are read as the same
type, or they are refused for the same cause apart from its offset.
-/
theorem parse_congr_symbols (scope : Scope) (depth : Nat) (left right : String)
    (same : (Lexeme.significant left).map Lexeme.symbol =
      (Lexeme.significant right).map Lexeme.symbol) :
    (scope.parse depth left).mapError TypeError.withoutOffset =
      (scope.parse depth right).mapError TypeError.withoutOffset := by
  rw [← List.forall₂_eq_eq_eq, List.forall₂_map_left_iff, List.forall₂_map_right_iff] at same
  exact Grammar.root_alike scope _ _ depth same

/-- Blanks around lexemes change neither a type that is read nor what is found to be unexpected. -/
theorem parse_congr_symbols_node :
    (ofGraph.parse 3 "Node<?super T>[]" = .ok (.array (nodeOf (.superOf (.var graphVariable)))) ∧
        ofGraph.parse 3 "\tNode < ? super T >[ ] " =
          .ok (.array (nodeOf (.superOf (.var graphVariable))))) ∧
      ofGraph.parse 3 "Node<T[>" =
        .error (.unexpected 7 (.lexeme .bracketClose) (.lexeme .angleClose)) ∧
      (ofGraph.parse 3 " Node<T [ >").mapError TypeError.withoutOffset =
        .error (.unexpected 0 (.lexeme .bracketClose) (.lexeme .angleClose)) := by
  have read : ofGraph.parse 3 "Node<?super T>[]" =
      .ok (.array (nodeOf (.superOf (.var graphVariable)))) := by decide +kernel
  have refused : ofGraph.parse 3 "Node<T[>" =
      .error (.unexpected 7 (.lexeme .bracketClose) (.lexeme .angleClose)) := by decide +kernel
  have sameRead := parse_congr_symbols ofGraph 3 "Node<?super T>[]" "\tNode < ? super T >[ ] "
    (by decide +kernel)
  have sameRefused := parse_congr_symbols ofGraph 3 "Node<T[>" " Node<T [ >" (by decide +kernel)
  rw [read] at sameRead
  rw [refused] at sameRefused
  exact ⟨⟨read, mapError_eq_ok.1 sameRead.symm⟩, refused, sameRefused.symm⟩

end Scope

end NominalTypes
