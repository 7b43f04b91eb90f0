import NominalTypes.Grammar.Token
import NominalTypes.Proofs.Grammar.Tokenization

/-!
# Lexing by rules divides the text

The first character of what is still to be read tells the rules that can match there: one for a
blank or a punctuation character, the keywords and the identifiers for a letter, and none for a
character of garbage. So the longest match is the lexeme that the scan divides off, and a failure is
one character of the run that the scan takes at once. The lexer adds these failures up: what it has
found, with what it holds back, is at every place what the scan still finds there. Its tokens are
those of the only division of the text.
-/

namespace NominalTypes

open Lexeme

theorem foldl_improve_lt {rules : List LexicalRule} {best : Option LexemeKind × Nat}
    {characters : List Char} {bound : Nat} (bestIsShort : best.2 < bound)
    (areShort : ∀ rule ∈ rules, rule.shape.extent characters < bound) :
    (rules.foldl (LexicalRule.improve characters) best).2 < bound := by
  induction rules generalizing best with
  | nil => exact bestIsShort
  | cons rule rules ih =>
      rcases List.forall_mem_cons.1 areShort with ⟨isShort, areShort⟩
      refine ih ?_ areShort
      unfold LexicalRule.improve
      split
      · exact isShort
      · exact bestIsShort

theorem foldl_improve_eq_self {rules : List LexicalRule} {best : Option LexemeKind × Nat}
    {characters : List Char} (noLonger : ∀ rule ∈ rules, rule.shape.extent characters ≤ best.2) :
    rules.foldl (LexicalRule.improve characters) best = best := by
  induction rules with
  | nil => rfl
  | cons rule rules ih =>
      rcases List.forall_mem_cons.1 noLonger with ⟨isNoLonger, noLonger⟩
      rw [List.foldl_cons, LexicalRule.improve, if_neg (Nat.not_lt.2 isNoLonger), ih noLonger]

/-- The first one of the rules with the longest text matches. -/
theorem longestMatch_append (before after : List LexicalRule) {rule : LexicalRule}
    {characters : List Char} (nonempty : 0 < rule.shape.extent characters)
    (shorter : ∀ other ∈ before, other.shape.extent characters < rule.shape.extent characters)
    (noLonger : ∀ other ∈ after, other.shape.extent characters ≤ rule.shape.extent characters) :
    longestMatch (before ++ rule :: after) characters =
      (some rule.kind, rule.shape.extent characters) := by
  rw [longestMatch, List.foldl_append, List.foldl_cons, LexicalRule.improve,
    if_pos (foldl_improve_lt nonempty shorter)]
  exact foldl_improve_eq_self noLonger

/-- The rules for the two words that are no identifiers. -/
def keywordRules : List LexicalRule :=
  [⟨.extendsWord, .literal "extends".toList⟩, ⟨.superWord, .literal "super".toList⟩]

theorem ne_of_punctuation?_eq_none {first : Char} (noPunctuation : punctuation? first = none) :
    ∀ character ∈ punctuationCharacters, character ≠ first := by
  rintro character isPunctuation rfl
  have all : punctuationCharacters.all (fun character => (punctuation? character).isSome) = true := by
    decide
  have some := List.all_eq_true.1 all character isPunctuation
  rw [noPunctuation] at some
  exact Bool.false_ne_true some

/-- Where no blank and no punctuation starts, only the rules for words are left. -/
theorem longestMatch_of_notBlank {first : Char} (notBlank : isBlank first = false)
    (noPunctuation : punctuation? first = none) (rest : List Char) :
    longestMatch lexicalRules (first :: rest) =
      longestMatch (keywordRules ++ [⟨.identifier, .run startsWord continuesWord⟩])
        (first :: rest) := by
  have others := ne_of_punctuation?_eq_none noPunctuation
  simp only [punctuationCharacters, List.forall_mem_cons] at others
  simp [longestMatch, lexicalRules, keywordRules, LexicalRule.improve, TextShape.extent, notBlank,
    others]

/-- At a blank the longest match is the run of blanks. -/
theorem longestMatch_of_isBlank {first : Char} (blank : isBlank first = true) (rest : List Char) :
    longestMatch lexicalRules (first :: rest) = (some .blank, (rest.takeWhile isBlank).length + 1) := by
  have starts := startsWord_of_isBlank blank
  have isCharacter := blank
  simp only [isBlank, Bool.or_eq_true, decide_eq_true_eq] at isCharacter
  rcases isCharacter with ((rfl | rfl) | rfl) | rfl <;>
    simp [longestMatch, lexicalRules, LexicalRule.improve, TextShape.extent, blank, starts]

/-- At a punctuation character the longest match is this character. -/
theorem longestMatch_of_punctuation? {first : Char} {kind : LexemeKind}
    (isPunctuation : punctuation? first = some kind) (rest : List Char) :
    longestMatch lexicalRules (first :: rest) = (some kind, 1) := by
  have notBlank := isBlank_of_punctuation? isPunctuation
  have continues := continuesWord_of_punctuation? isPunctuation
  simp only [continuesWord, Bool.or_eq_false_iff] at continues
  simp only [punctuation?] at isPunctuation
  split at isPunctuation <;> cases isPunctuation <;>
    simp [longestMatch, lexicalRules, LexicalRule.improve, TextShape.extent, notBlank, continues]

/-- At a character of garbage no rule matches. -/
theorem longestMatch_of_isGarbage {first : Char} (garbage : isGarbage first = true)
    (rest : List Char) : longestMatch lexicalRules (first :: rest) = (none, 0) := by
  simp only [isGarbage, Bool.and_eq_true, Bool.not_eq_true', Option.isNone_iff_eq_none] at garbage
  rcases garbage with ⟨⟨notBlank, noPunctuation⟩, notStarting⟩
  have noExtends : 'e' ≠ first := by
    rintro rfl
    exact absurd notStarting (by decide)
  have noSuper : 's' ≠ first := by
    rintro rfl
    exact absurd notStarting (by decide)
  rw [longestMatch_of_notBlank notBlank noPunctuation]
  simp [longestMatch, keywordRules, LexicalRule.improve, TextShape.extent, notStarting, noExtends,
    noSuper]

/-- A keyword that the characters begin with is no longer than the word there. -/
theorem extent_keyword {keyword : List Char} (isWord : IsWord keyword) (first : Char)
    (rest : List Char) :
    (TextShape.literal keyword).extent (first :: rest) =
      if keyword <+: first :: rest.takeWhile continuesWord then keyword.length else 0 := by
  rcases isWord with ⟨other, others, rfl, -, continues⟩
  have sameBeginning : others <+: rest ↔ others <+: rest.takeWhile continuesWord := by
    constructor
    · rintro ⟨behind, rfl⟩
      rw [List.takeWhile_append_of_pos continues]
      exact List.prefix_append _ _
    · intro begins
      exact begins.trans (List.takeWhile_prefix _)
  simp only [TextShape.extent, List.isPrefixOf_iff_prefix, List.cons_prefix_cons, sameBeginning]

/-- A keyword that is not the whole word at the characters loses against the word. -/
theorem extent_keyword_lt {keyword : List Char} (isWord : IsWord keyword) {first : Char}
    {rest : List Char} (different : first :: rest.takeWhile continuesWord ≠ keyword) :
    (TextShape.literal keyword).extent (first :: rest) <
      (first :: rest.takeWhile continuesWord).length := by
  rw [extent_keyword isWord]
  split
  · next begins =>
    refine lt_of_le_of_ne begins.length_le fun sameLength => ?_
    exact different (begins.eq_of_length sameLength).symm
  · exact Nat.zero_lt_succ _

/-- At a word the longest match is the whole word, of the kind that the word has. -/
theorem longestMatch_of_startsWord {first : Char} (starts : startsWord first = true)
    (rest : List Char) :
    longestMatch lexicalRules (first :: rest) =
      (some (wordKind (first :: rest.takeWhile continuesWord)),
        (first :: rest.takeWhile continuesWord).length) := by
  have ofWord : (TextShape.run startsWord continuesWord).extent (first :: rest) =
      (first :: rest.takeWhile continuesWord).length := by
    simp [TextShape.extent, starts]
  have ofKeyword : ∀ {keyword : List Char}, IsWord keyword →
      first :: rest.takeWhile continuesWord = keyword →
        (TextShape.literal keyword).extent (first :: rest) =
          (TextShape.run startsWord continuesWord).extent (first :: rest) := by
    rintro keyword isWord rfl
    rw [extent_keyword isWord, if_pos List.prefix_rfl, ofWord]
  have shorter : ∀ {keyword : List Char}, IsWord keyword →
      first :: rest.takeWhile continuesWord ≠ keyword →
        (TextShape.literal keyword).extent (first :: rest) <
          (TextShape.run startsWord continuesWord).extent (first :: rest) := by
    intro keyword isWord different
    rw [ofWord]
    exact extent_keyword_lt isWord different
  have nonempty : 0 < (TextShape.run startsWord continuesWord).extent (first :: rest) :=
    ofWord ▸ Nat.zero_lt_succ _
  rw [longestMatch_of_notBlank (isBlank_of_startsWord starts) (punctuation?_of_startsWord starts),
    ← ofWord, wordKind]
  split
  · next isExtends =>
    have same := ofKeyword isWord_extends isExtends
    have superShorter := shorter isWord_super (by rw [isExtends]; decide)
    rw [← same] at nonempty superShorter ⊢
    exact longestMatch_append [] _ nonempty (List.forall_mem_nil _)
      (List.forall_mem_cons.2 ⟨superShorter.le, List.forall_mem_singleton.2 same.ge⟩)
  · next notExtends =>
    have extendsShorter := shorter isWord_extends notExtends
    split
    · next isSuper =>
      have same := ofKeyword isWord_super isSuper
      rw [← same] at nonempty extendsShorter ⊢
      exact longestMatch_append [_] _ nonempty (List.forall_mem_singleton.2 extendsShorter)
        (List.forall_mem_singleton.2 same.ge)
    · next notSuper =>
      exact longestMatch_append keywordRules [] nonempty
        (List.forall_mem_cons.2 ⟨extendsShorter,
          List.forall_mem_singleton.2 (shorter isWord_super notSuper)⟩)
        (List.forall_mem_nil _)

/-- Where a lexeme starts that is no garbage, the longest match is the lexeme. -/
theorem longestMatch_eq_split {first : Char} (ordinary : isGarbage first = false)
    (rest : List Char) :
    longestMatch lexicalRules (first :: rest) =
      (some (split first rest).1, (split first rest).2.1.length + 1) := by
  cases blank : isBlank first with
  | true => rw [longestMatch_of_isBlank blank, split_of_isBlank blank]
  | false =>
      cases isPunctuation : punctuation? first with
      | some kind =>
          rw [longestMatch_of_punctuation? isPunctuation, split_of_punctuation? isPunctuation]
          rfl
      | none =>
          have starts : startsWord first = true := by
            simpa [isGarbage, blank, isPunctuation] using ordinary
          rw [longestMatch_of_startsWord starts, split_of_startsWord starts]
          rfl

/-- A character of garbage is a failure of its own. -/
theorem rawTokens_of_isGarbage {first : Char} (garbage : isGarbage first = true) (start : Nat)
    (rest : List Char) :
    rawTokens start (first :: rest) =
      ⟨none, start, start + first.utf8Size⟩ :: rawTokens (start + first.utf8Size) rest := by
  rw [rawTokens, longestMatch_of_isGarbage garbage]
  simp

/-- What is found at any other character is the lexeme that the scan divides off there. -/
theorem rawTokens_of_not_isGarbage {first : Char} (ordinary : isGarbage first = false) (start : Nat)
    (rest : List Char) :
    let stop := start + (String.ofList (first :: (split first rest).2.1)).utf8ByteSize
    rawTokens start (first :: rest) =
      ⟨some (split first rest).1, start, stop⟩ :: rawTokens stop (split first rest).2.2 := by
  have whole := split_append first rest
  have taken : rest.take (split first rest).2.1.length = (split first rest).2.1 :=
    (congrArg (List.take _) whole).symm.trans List.take_left
  have left : rest.drop (split first rest).2.1.length = (split first rest).2.2 :=
    (congrArg (List.drop _) whole).symm.trans List.drop_left
  rw [rawTokens, longestMatch_eq_split ordinary]
  simp only [Nat.add_sub_cancel, taken, left]

theorem offset_cons (start : Nat) (first : Char) (rest : List Char) :
    start + (String.ofList (first :: rest)).utf8ByteSize =
      start + first.utf8Size + (String.ofList rest).utf8ByteSize := by
  rw [String.ofList_cons]
  simp [Nat.add_assoc]

/--
The tokens that are still to come where the characters start at an offset: those of the scan, which
begin with one for the garbage that is held back.
-/
def remainingTokens (garbageStart : Option Nat) (start : Nat) (characters : List Char) :
    List Token :=
  match garbageStart with
  | none => (scanFrom start characters).map token
  | some garbageStart =>
      let garbage := String.ofList (characters.takeWhile isGarbage)
      ⟨.garbage, garbageStart, start + garbage.utf8ByteSize⟩ ::
        (scanFrom (start + garbage.utf8ByteSize) (characters.dropWhile isGarbage)).map token

/-- A garbage character belongs to what is held back, and starts it if nothing is. -/
theorem remainingTokens_of_isGarbage {first : Char} (garbage : isGarbage first = true)
    (garbageStart : Option Nat) (start : Nat) (rest : List Char) :
    remainingTokens garbageStart start (first :: rest) =
      remainingTokens (some (garbageStart.getD start)) (start + first.utf8Size) rest := by
  cases garbageStart with
  | none =>
      simp only [remainingTokens, scanFrom, split_of_isGarbage garbage, List.map_cons, token, stop,
        offset_cons, Option.getD_none]
  | some garbageStart =>
      simp only [remainingTokens, List.takeWhile_cons_of_pos garbage,
        List.dropWhile_cons_of_pos garbage, offset_cons, Option.getD_some]

/-- Before a lexeme that is no garbage, what is held back becomes a token. -/
theorem remainingTokens_of_not_isGarbage {first : Char} (ordinary : isGarbage first = false)
    (garbageStart : Option Nat) (start : Nat) (rest : List Char) :
    let stop := start + (String.ofList (first :: (split first rest).2.1)).utf8ByteSize
    remainingTokens garbageStart start (first :: rest) =
      (garbageStart.map fun garbageStart => ⟨.garbage, garbageStart, start⟩).toList ++
        ⟨(split first rest).1, start, stop⟩ :: remainingTokens none stop (split first rest).2.2 := by
  cases garbageStart with
  | none => simp [remainingTokens, scanFrom, token, stop]
  | some garbageStart => simp [remainingTokens, scanFrom, ordinary, token, stop]

namespace Lexing

theorem tokens_flush (self : Lexing) (stop : Nat) :
    (self.flush stop).tokens =
      self.tokens ++ (self.garbageStart.map fun start => ⟨.garbage, start, stop⟩).toList := by
  unfold flush
  cases self.garbageStart <;> simp

/-- A failure is held back, from where the first one before it starts. -/
theorem add_failure (self : Lexing) (start stop : Nat) :
    self.add ⟨none, start, stop⟩ = ⟨self.tokens, some (self.garbageStart.getD start)⟩ := by
  rcases self with ⟨tokens, garbageStart⟩
  cases garbageStart <;> rfl

/-- A match comes behind the failures that were held back, and none are left. -/
theorem add_match (self : Lexing) (kind : LexemeKind) (start stop : Nat) :
    self.add ⟨some kind, start, stop⟩ =
      ⟨self.tokens ++ (self.garbageStart.map fun held => ⟨.garbage, held, start⟩).toList ++
        [⟨kind, start, stop⟩], none⟩ := by
  rcases self with ⟨tokens, garbageStart⟩
  cases garbageStart <;> simp [add, flush, push]

/--
What the lexer has found when it reaches the end: the tokens that it has at some place, and those
that are still to come from there.
-/
theorem tokens_foldl_add (self : Lexing) (start : Nat) (characters : List Char) :
    (((rawTokens start characters).foldl add self).flush
        (start + (String.ofList characters).utf8ByteSize)).tokens =
      self.tokens ++ remainingTokens self.garbageStart start characters := by
  induction length : characters.length using Nat.strong_induction_on
    generalizing self start characters with
  | _ length ih =>
      cases characters with
      | nil =>
          rw [rawTokens, List.foldl_nil, tokens_flush]
          cases self.garbageStart <;> simp [remainingTokens, scanFrom]
      | cons first rest =>
          cases garbage : isGarbage first with
          | true =>
              rw [rawTokens_of_isGarbage garbage, List.foldl_cons, add_failure, offset_cons,
                ih rest.length (by simp [← length]) _ _ _ rfl,
                remainingTokens_of_isGarbage garbage]
          | false =>
              have shorter := split_length first rest
              have bytes := congrArg String.utf8ByteSize (ofList_eq_append_split first rest)
              rw [String.utf8ByteSize_append] at bytes
              rw [rawTokens_of_not_isGarbage garbage, List.foldl_cons, add_match, bytes,
                ← Nat.add_assoc, ih _ (by simp only [← length, List.length_cons]; omega) _ _ _ rfl,
                remainingTokens_of_not_isGarbage garbage]
              simp

end Lexing

/-- The tokens are the lexemes that the scan finds, without their texts. -/
theorem lex_eq_scan (text : String) : lex text = (scan text).map token := by
  have tokens := Lexing.tokens_foldl_add {} 0 text.toList
  rwa [String.ofList_toList, Nat.zero_add] at tokens

/--
There is exactly one way to divide a text into lexemes that cannot be lengthened, and the lexer
finds it: its tokens are the kinds and the offsets of these lexemes.
-/
theorem isTokenization_iff_eq_lex (text : String) (tokens : List Token) :
    (∃ lexemes, IsTokenization text lexemes ∧ tokens = lexemes.map token) ↔ tokens = lex text := by
  rw [lex_eq_scan]
  constructor
  · rintro ⟨lexemes, isTokenization, rfl⟩
    rw [(isTokenization_iff_eq_scan text lexemes).1 isTokenization]
  · rintro rfl
    exact ⟨scan text, (isTokenization_iff_eq_scan text _).2 rfl, rfl⟩

end NominalTypes
