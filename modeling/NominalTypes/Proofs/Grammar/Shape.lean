import Mathlib.Data.List.TakeWhile
import NominalTypes.Grammar.Derivation
import NominalTypes.Grammar.Tokenization

/-!
# The shapes of lexemes

Each lexeme of a text has the shape of its kind. So the text of a punctuation character or of a
keyword is known from its kind, and as a symbol it is the one that derivations are written with;
only identifiers differ in their text.
-/

namespace NominalTypes

/-- The text that all lexemes of a kind have, if there is only one. -/
def LexemeKind.spelling? : LexemeKind → Option String
  | .angleOpen => some "<"
  | .angleClose => some ">"
  | .bracketOpen => some "["
  | .bracketClose => some "]"
  | .comma => some ","
  | .dot => some "."
  | .question => some "?"
  | .ampersand => some "&"
  | .extendsWord => some "extends"
  | .superWord => some "super"
  | .blank | .identifier | .garbage => none

namespace Lexeme

theorem spelling?_of_punctuation? {character : Char} {kind : LexemeKind}
    (isPunctuation : punctuation? character = some kind) :
    kind.spelling? = some (String.singleton character) := by
  simp only [punctuation?] at isPunctuation
  split at isPunctuation <;> cases isPunctuation <;> rfl

/-- A lexeme of a kind with only one text has this text. -/
theorem HasShape.text_eq {lexeme : Lexeme} (shaped : lexeme.HasShape) {spelling : String}
    (spelled : lexeme.kind.spelling? = some spelling) : lexeme.text = spelling := by
  rcases lexeme with ⟨kind, start, text⟩
  have single : (∃ character, text.toList = [character] ∧ punctuation? character = some kind) →
      text = spelling := by
    rintro ⟨character, isText, isPunctuation⟩
    have known := spelling?_of_punctuation? isPunctuation
    simp only [known, Option.some.injEq] at spelled
    rw [← spelled, ← String.ofList_toList (s := text), isText]
    rfl
  cases kind with
  | blank | identifier | garbage => simp [LexemeKind.spelling?] at spelled
  | extendsWord =>
      simp only [LexemeKind.spelling?, Option.some.injEq] at spelled
      exact Eq.trans shaped spelled
  | superWord =>
      simp only [LexemeKind.spelling?, Option.some.injEq] at spelled
      exact Eq.trans shaped spelled
  | angleOpen | angleClose | bracketOpen | bracketClose | comma | dot | question | ampersand =>
      exact single shaped

theorem HasShape.symbol_eq {lexeme : Lexeme} (shaped : lexeme.HasShape) {kind : LexemeKind}
    {spelling : String} (isKind : lexeme.kind = kind) (spelled : kind.spelling? = some spelling) :
    lexeme.symbol = ⟨kind, spelling⟩ := by
  subst isKind
  simp [symbol, shaped.text_eq spelled]

theorem wordKind_shape {word : List Char} (isWord : IsWord word) (start : Nat) :
    HasShape { kind := wordKind word, start, text := String.ofList word } := by
  simp only [wordKind]
  split
  · next isExtends => simp [HasShape, isExtends]
  · next notExtends =>
    split
    · next isSuper => simp [HasShape, isSuper]
    · next notSuper =>
      refine ⟨by simpa [characters] using isWord, ?_, ?_⟩
      · intro same
        exact notExtends (by simpa using congrArg String.toList same)
      · intro same
        exact notSuper (by simpa using congrArg String.toList same)

/-- What is divided off first has the shape of its kind. -/
theorem split_hasShape (start : Nat) (first : Char) (rest : List Char) :
    HasShape { kind := (split first rest).1, start,
               text := String.ofList (first :: (split first rest).2.1) } := by
  simp only [split]
  split
  · next isBlankFirst =>
    refine ⟨by simp [characters], ?_⟩
    simp only [characters, String.toList_ofList, List.forall_mem_cons]
    exact ⟨isBlankFirst, fun _ => List.mem_takeWhile_imp⟩
  · next notBlank =>
    split
    · next kind isPunctuation =>
      have shaped : ∃ character, (String.ofList [first]).toList = [character] ∧
          punctuation? character = some kind := ⟨first, by simp, isPunctuation⟩
      cases kind with
      | blank | identifier | garbage | extendsWord | superWord =>
          exact absurd isPunctuation (by unfold punctuation?; split <;> simp)
      | angleOpen | angleClose | bracketOpen | bracketClose | comma | dot | question | ampersand =>
          exact shaped
    · next noPunctuation =>
      split
      · next startsFirst =>
        exact wordKind_shape ⟨first, _, rfl, startsFirst, fun _ => List.mem_takeWhile_imp⟩ start
      · next notStarting =>
        refine ⟨by simp [characters], ?_⟩
        simp only [characters, String.toList_ofList, List.forall_mem_cons]
        refine ⟨?_, fun _ => List.mem_takeWhile_imp⟩
        simp [isGarbage, notBlank, noPunctuation, notStarting]

/-- The lexemes that the scan finds have the shapes of their kinds. -/
theorem hasShape_of_mem_scanFrom {start : Nat} {characters : List Char} {lexeme : Lexeme}
    (member : lexeme ∈ scanFrom start characters) : lexeme.HasShape := by
  fun_induction scanFrom start characters with
  | case1 => cases member
  | case2 start first rest text ih =>
      rcases List.mem_cons.1 member with rfl | later
      · exact split_hasShape start first rest
      · exact ih later

theorem hasShape_of_mem_significant {text : String} {lexeme : Lexeme}
    (member : lexeme ∈ significant text) : lexeme.HasShape :=
  hasShape_of_mem_scanFrom (List.mem_filter.1 member).1

end Lexeme

end NominalTypes
