import NominalTypes.Proofs.Grammar.Trees

/-!
# Symbols written as text

`Lexeme.symbols` gives what the lexemes of some characters mean to the grammar. Characters are a
writing of symbols when they are divided into them in front of everything that would not lengthen
their last word. Punctuation characters, words and blanks are put together to writings of symbol
sequences; a word needs something behind it that ends it.
-/

namespace NominalTypes

namespace Lexeme

/-- The symbols of the significant lexemes that the characters are divided into. -/
def symbols (characters : List Char) : List Symbol :=
  ((scanFrom 0 characters).filter fun lexeme => !lexeme.isTrivia).map symbol

/-- The characters do not go on with a word. -/
def EndsWord (characters : List Char) : Prop :=
  ∀ character ∈ characters.head?, continuesWord character = false

/-- In front of what ends a word the characters are divided into the symbols. -/
def IsWriting (written : List Symbol) (characters : List Char) : Prop :=
  ∀ rest, EndsWord rest → symbols (characters ++ rest) = written ++ symbols rest

/-- What lexemes mean to the grammar does not depend on their offsets. -/
theorem scanFrom_map_symbol (start other : Nat) (characters : List Char) :
    (scanFrom start characters).map symbol = (scanFrom other characters).map symbol := by
  fun_induction scanFrom start characters generalizing other with
  | case1 => rw [scanFrom]
  | case2 start first rest text ih =>
      rw [scanFrom]
      simp only [List.map_cons, symbol]
      exact congrArg _ (ih _)

theorem significant_map_symbol (text : String) :
    (significant text).map symbol = symbols text.toList := rfl

theorem filter_map_symbol (lexemes : List Lexeme) :
    (lexemes.filter fun lexeme => !lexeme.isTrivia).map symbol =
      (lexemes.map symbol).filter fun symbol => !decide (symbol.kind = .blank) := by
  rw [List.filter_map]
  rfl

@[simp] theorem symbols_nil : symbols [] = [] := by
  simp [symbols, scanFrom]

/--
The symbols of a text are that of its first lexeme, unless this is a blank, and those of the rest.
-/
theorem symbols_cons (first : Char) (rest : List Char) :
    symbols (first :: rest) =
      (if (split first rest).1 = .blank then []
        else [⟨(split first rest).1, String.ofList (first :: (split first rest).2.1)⟩]) ++
      symbols (split first rest).2.2 := by
  simp only [symbols]
  rw [scanFrom]
  simp only [filter_map_symbol, List.map_cons,
    scanFrom_map_symbol _ 0 (split first rest).2.2]
  by_cases isBlank : (split first rest).1 = .blank
  · simp [symbol, isBlank]
  · simp [symbol, isBlank]

theorem split_of_isBlank {first : Char} (blank : isBlank first = true) (rest : List Char) :
    split first rest = (.blank, rest.takeWhile isBlank, rest.dropWhile isBlank) := by
  simp [split, blank]

theorem symbols_dropWhile_isBlank (characters : List Char) :
    symbols (characters.dropWhile isBlank) = symbols characters := by
  cases characters with
  | nil => rfl
  | cons first rest =>
      cases blank : isBlank first with
      | false => simp [List.dropWhile, blank]
      | true => simp [List.dropWhile, blank, symbols_cons, split_of_isBlank blank]

theorem symbols_blank_cons {blank : Char} (isBlank : isBlank blank = true) (rest : List Char) :
    symbols (blank :: rest) = symbols rest := by
  simp [symbols_cons, split_of_isBlank isBlank, symbols_dropWhile_isBlank]

/-- The characters that are lexemes on their own. -/
def punctuationCharacters : List Char := ['<', '>', '[', ']', ',', '.', '?', '&']

theorem mem_punctuationCharacters {character : Char} {kind : LexemeKind}
    (isPunctuation : punctuation? character = some kind) : character ∈ punctuationCharacters := by
  simp only [punctuation?] at isPunctuation
  split at isPunctuation <;> simp_all [punctuationCharacters]

theorem isBlank_of_punctuation? {character : Char} {kind : LexemeKind}
    (isPunctuation : punctuation? character = some kind) : isBlank character = false := by
  have all : punctuationCharacters.all (fun character => !isBlank character) = true := by decide
  have member := mem_punctuationCharacters isPunctuation
  simpa using List.all_eq_true.1 all character member

theorem split_of_punctuation? {first : Char} {kind : LexemeKind}
    (isPunctuation : punctuation? first = some kind) (rest : List Char) :
    split first rest = (kind, [], rest) := by
  simp [split, isBlank_of_punctuation? isPunctuation, isPunctuation]

theorem continuesWord_of_punctuation? {character : Char} {kind : LexemeKind}
    (isPunctuation : punctuation? character = some kind) : continuesWord character = false := by
  have all : punctuationCharacters.all (fun character => !continuesWord character) = true := by
    decide
  have member := mem_punctuationCharacters isPunctuation
  simpa using List.all_eq_true.1 all character member

theorem IsWord.not_mem_of_punctuation? {word : List Char} (isWord : IsWord word)
    {character : Char} {kind : LexemeKind} (isPunctuation : punctuation? character = some kind) :
    character ∉ word := by
  intro member
  rcases isWord with ⟨first, rest, rfl, starts, continues⟩
  have stops := continuesWord_of_punctuation? isPunctuation
  rcases List.mem_cons.1 member with rfl | later
  · simp [continuesWord, starts] at stops
  · rw [continues character later] at stops
    cases stops

/-- A punctuation character is a symbol on its own. -/
theorem symbols_punctuation_cons {character : Char} {kind : LexemeKind}
    (isPunctuation : punctuation? character = some kind) (rest : List Char) :
    symbols (character :: rest) = ⟨kind, String.singleton character⟩ :: symbols rest := by
  have notBlank : kind ≠ .blank := by
    rintro rfl
    exact absurd (spelling?_of_punctuation? isPunctuation) (by simp [LexemeKind.spelling?])
  simp [symbols_cons, split_of_punctuation? isPunctuation, notBlank]

theorem startsWord_of_isBlank {character : Char} (blank : isBlank character = true) :
    startsWord character = false := by
  simp only [isBlank, Bool.or_eq_true, decide_eq_true_eq] at blank
  rcases blank with ((rfl | rfl) | rfl) | rfl <;> decide

/-- A run of a class of characters ends in front of what does not belong to the class. -/
theorem takeWhile_append_of_stops {belongs : Char → Bool} {run behind : List Char}
    (runs : ∀ character ∈ run, belongs character = true)
    (stops : ∀ character ∈ behind.head?, belongs character = false) :
    (run ++ behind).takeWhile belongs = run ∧ (run ++ behind).dropWhile belongs = behind := by
  rw [List.takeWhile_append_of_pos runs, List.dropWhile_append_of_pos runs]
  cases behind with
  | nil => simp
  | cons next others =>
      have stopsNext : belongs next = false := stops next rfl
      simp [stopsNext]

theorem isBlank_of_startsWord {first : Char} (starts : startsWord first = true) :
    isBlank first = false := by
  cases blank : isBlank first with
  | false => rfl
  | true => simp [startsWord_of_isBlank blank] at starts

theorem punctuation?_of_startsWord {first : Char} (starts : startsWord first = true) :
    punctuation? first = none := by
  cases isPunctuation : punctuation? first with
  | none => rfl
  | some kind =>
      have stops := continuesWord_of_punctuation? isPunctuation
      simp [continuesWord, starts] at stops

theorem split_of_startsWord {first : Char} (starts : startsWord first = true) (rest : List Char) :
    split first rest = (wordKind (first :: rest.takeWhile continuesWord),
      rest.takeWhile continuesWord, rest.dropWhile continuesWord) := by
  simp [split, isBlank_of_startsWord starts, punctuation?_of_startsWord starts, starts]

theorem wordKind_ne_blank (word : List Char) : wordKind word ≠ .blank := by
  simp only [wordKind]
  split
  · simp
  · split <;> simp

/-- A word is divided off as a whole in front of what ends it. -/
theorem symbols_word_append {word rest : List Char} (isWord : IsWord word) (ends : EndsWord rest) :
    symbols (word ++ rest) = ⟨wordKind word, String.ofList word⟩ :: symbols rest := by
  rcases isWord with ⟨first, others, rfl, starts, continues⟩
  rcases takeWhile_append_of_stops continues ends with ⟨taken, left⟩
  simp [symbols_cons, split_of_startsWord starts, taken, left, wordKind_ne_blank]

theorem endsWord_nil : EndsWord [] := by
  simp [EndsWord]

theorem endsWord_cons {first : Char} {rest : List Char} :
    EndsWord (first :: rest) ↔ continuesWord first = false := by
  simp [EndsWord]

theorem EndsWord.append {front back : List Char} (frontEnds : EndsWord front)
    (backEnds : EndsWord back) : EndsWord (front ++ back) := by
  cases front with
  | nil => exact backEnds
  | cons first rest => exact endsWord_cons.2 (endsWord_cons.1 frontEnds)

/-- A writing alone is divided into its symbols. -/
theorem IsWriting.symbols_eq {written : List Symbol} {characters : List Char}
    (writing : IsWriting written characters) : symbols characters = written := by
  simpa using writing [] endsWord_nil

theorem isWriting_nil : IsWriting [] [] := by
  intro rest ends
  rfl

theorem isWriting_word {word : List Char} (isWord : IsWord word) :
    IsWriting [⟨wordKind word, String.ofList word⟩] word :=
  fun _ ends => symbols_word_append isWord ends

/-- Writings behind each other are a writing of both, if a word ends in front of the second one. -/
theorem IsWriting.append {front back : List Symbol} {frontText backText : List Char}
    (frontWriting : IsWriting front frontText) (backWriting : IsWriting back backText)
    (ends : EndsWord backText) : IsWriting (front ++ back) (frontText ++ backText) := by
  intro rest restEnds
  rw [List.append_assoc, frontWriting _ (ends.append restEnds), backWriting rest restEnds,
    List.append_assoc]

/-- A punctuation character can stand in front of any writing. -/
theorem IsWriting.punctuation {written : List Symbol} {characters : List Char}
    (writing : IsWriting written characters) {character : Char} {kind : LexemeKind}
    (isPunctuation : punctuation? character = some kind) :
    IsWriting (⟨kind, String.singleton character⟩ :: written) (character :: characters) := by
  intro rest ends
  rw [List.cons_append, symbols_punctuation_cons isPunctuation, writing rest ends,
    List.cons_append]

/-- Blanks can stand in front of any writing. -/
theorem IsWriting.blank {written : List Symbol} {characters : List Char}
    (writing : IsWriting written characters) {blank : Char} (isBlank : isBlank blank = true) :
    IsWriting written (blank :: characters) := by
  intro rest ends
  rw [List.cons_append, symbols_blank_cons isBlank, writing rest ends]

/-- The word is divided into a single lexeme, which is an identifier. -/
def IsIdentifier (word : String) : Prop :=
  ∃ lexeme, scan word = [lexeme] ∧ lexeme.kind = .identifier

theorem HasShape.wordKind_eq {lexeme : Lexeme} (shaped : lexeme.HasShape)
    (isIdentifier : lexeme.kind = .identifier) : wordKind lexeme.text.toList = .identifier := by
  rcases lexeme with ⟨kind, start, text⟩
  cases isIdentifier
  rcases shaped with ⟨-, notExtends, notSuper⟩
  have notExtendsWord : text.toList ≠ "extends".toList :=
    fun same => notExtends (String.toList_inj.1 same)
  have notSuperWord : text.toList ≠ "super".toList :=
    fun same => notSuper (String.toList_inj.1 same)
  rw [wordKind, if_neg notExtendsWord, if_neg notSuperWord]

theorem HasShape.isWriting {lexeme : Lexeme} (shaped : lexeme.HasShape)
    (isIdentifier : lexeme.kind = .identifier) :
    IsWriting [⟨.identifier, lexeme.text⟩] lexeme.text.toList := by
  have isKind := shaped.wordKind_eq isIdentifier
  rcases lexeme with ⟨kind, start, text⟩
  cases isIdentifier
  have writing : IsWriting [⟨wordKind text.toList, String.ofList text.toList⟩] text.toList :=
    isWriting_word shaped.1
  rwa [isKind, String.ofList_toList] at writing

theorem IsIdentifier.hasShape {word : String} (isIdentifier : IsIdentifier word) :
    HasShape ⟨.identifier, 0, word⟩ := by
  rcases isIdentifier with ⟨lexeme, isScan, isKind⟩
  have isScanFrom : scanFrom 0 word.toList = [lexeme] := isScan
  have member : lexeme ∈ scanFrom 0 word.toList := by
    rw [isScanFrom]
    exact List.mem_singleton.2 rfl
  have shaped : lexeme.HasShape := hasShape_of_mem_scanFrom member
  have isText : lexeme.text = word := by
    have whole := scanFrom_text 0 word.toList
    rw [isScanFrom] at whole
    exact String.toList_inj.1 (by simpa using whole)
  rcases lexeme with ⟨kind, start, text⟩
  cases isKind
  cases isText
  exact shaped

/-- A word in the shape of an identifier is divided off as a whole. -/
theorem HasShape.isIdentifier {word : String} (shaped : HasShape ⟨.identifier, 0, word⟩) :
    IsIdentifier word := by
  have isKind : wordKind word.toList = .identifier := shaped.wordKind_eq rfl
  rcases shaped.1 with ⟨first, rest, isText, starts, continues⟩
  have isText : word.toList = first :: rest := isText
  rcases takeWhile_append_of_stops continues endsWord_nil with ⟨taken, left⟩
  rw [List.append_nil] at taken left
  have isScan : scan word = [⟨.identifier, 0, word⟩] := by
    rw [scan, isText, scanFrom, split_of_startsWord starts, taken, left, scanFrom, ← isText, isKind,
      String.ofList_toList]
  exact ⟨_, isScan, rfl⟩

instance (characters : List Char) : Decidable (IsWord characters) :=
  match characters with
  | [] => isFalse (by rintro ⟨first, rest, isText, -⟩; cases isText)
  | first :: rest =>
      decidable_of_iff (startsWord first = true ∧ rest.all continuesWord = true)
        ⟨fun isWord => ⟨first, rest, rfl, isWord.1, List.all_eq_true.1 isWord.2⟩, by
          rintro ⟨_, _, ⟨⟩, starts, continues⟩
          exact ⟨starts, List.all_eq_true.2 continues⟩⟩

instance : DecidablePred IsIdentifier := fun word =>
  decidable_of_iff (IsWord word.toList ∧ word ≠ "extends" ∧ word ≠ "super")
    ⟨HasShape.isIdentifier, IsIdentifier.hasShape⟩

theorem IsIdentifier.isWriting {word : String} (isIdentifier : IsIdentifier word) :
    IsWriting [⟨.identifier, word⟩] word.toList :=
  isIdentifier.hasShape.isWriting rfl

theorem isWriting_keyword (primitive : Primitive) :
    IsWriting [⟨.identifier, primitive.keyword⟩] primitive.keyword.toList := by
  have isWord : IsWord primitive.keyword.toList := by
    cases primitive <;> exact ⟨_, _, rfl, by decide, List.all_eq_true.1 (by decide)⟩
  have isKind : wordKind primitive.keyword.toList = .identifier := by
    cases primitive <;> decide
  have writing := isWriting_word isWord
  rwa [isKind, String.ofList_toList] at writing

theorem isWord_extends : IsWord "extends".toList :=
  ⟨_, _, rfl, by decide, List.all_eq_true.1 (by decide)⟩

theorem isWord_super : IsWord "super".toList :=
  ⟨_, _, rfl, by decide, List.all_eq_true.1 (by decide)⟩

/--
Writings with separators between them are a writing of the parts with separators, if the separator
ends words.
-/
theorem isWriting_separate {separator : Symbol} {between : String}
    (separates : ∀ written characters, IsWriting written characters →
      IsWriting (separator :: written) (between.toList ++ characters))
    (ends : ∀ characters, EndsWord (between.toList ++ characters)) {parts : List (List Symbol)}
    {texts : List String}
    (writings : List.Forall₂ (fun part text => IsWriting part text.toList) parts texts) :
    IsWriting (Symbol.separate separator parts) (String.intercalate between texts).toList := by
  induction writings with
  | nil => exact isWriting_nil
  | @cons part text parts texts writing writings ih =>
      cases writings with
      | nil => simpa [Symbol.separate] using writing
      | cons next others =>
          rw [Symbol.separate_cons _ _ (by simp), String.intercalate_cons_of_ne_nil (by simp),
            String.toList_append, String.toList_append, List.append_assoc]
          exact writing.append (separates _ _ ih) (ends _)

/-- Identifiers with dots between them are a writing of the name. -/
theorem isWriting_name {first : String} {further : List String}
    (identifiers : ∀ segment ∈ first :: further, IsWriting [⟨.identifier, segment⟩] segment.toList) :
    IsWriting (Symbol.name first further) (String.intercalate "." (first :: further)).toList := by
  have isName : Symbol.name first further = Symbol.separate ⟨.dot, "."⟩
      ((first :: further).map fun segment => [⟨.identifier, segment⟩]) := by
    clear identifiers
    induction further generalizing first with
    | nil => rfl
    | cons second others ih =>
        rw [List.map_cons, Symbol.separate_cons _ _ (by simp), ← ih]
        rfl
  rw [isName]
  refine isWriting_separate ?_ ?_ ?_
  · intro written characters writing
    exact writing.punctuation rfl
  · intro characters
    exact endsWord_cons.2 (by decide)
  · rw [List.forall₂_map_left_iff, List.forall₂_same]
    exact identifiers

theorem isWriting_suffixes (dims : Nat) :
    IsWriting (Symbol.suffixes dims) (arraySuffix dims).toList := by
  induction dims with
  | zero => exact isWriting_nil
  | succ dims ih =>
      rw [arraySuffix, String.toList_append]
      exact (ih.punctuation rfl).punctuation rfl

theorem endsWord_arraySuffix (dims : Nat) : EndsWord (arraySuffix dims).toList := by
  cases dims with
  | zero => exact endsWord_nil
  | succ dims =>
      rw [arraySuffix, String.toList_append]
      exact endsWord_cons.2 (by decide)

end Lexeme

end NominalTypes
