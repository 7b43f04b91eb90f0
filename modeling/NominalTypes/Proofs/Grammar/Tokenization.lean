import NominalTypes.Proofs.Grammar.Writing

/-!
# The division into lexemes is unique

Where a text goes on after some of its lexemes is known from their offsets. The first character
there tells the kind of the next lexeme, since no character can start two kinds, and its shape
together with its maximality tells where it stops. So the lexemes that the scan finds are the only
ones that divide the text.
-/

namespace NominalTypes

namespace Lexeme

theorem split_of_isGarbage {first : Char} (garbage : isGarbage first = true) (rest : List Char) :
    split first rest = (.garbage, rest.takeWhile isGarbage, rest.dropWhile isGarbage) := by
  simp only [isGarbage, Bool.and_eq_true, Bool.not_eq_true', Option.isNone_iff_eq_none] at garbage
  rcases garbage with ⟨⟨notBlank, noPunctuation⟩, notStarting⟩
  simp [split, notBlank, noPunctuation, notStarting]

/-- What is shaped like a lexeme and cannot be lengthened is what is divided off first. -/
theorem HasShape.split_eq {lexeme : Lexeme} (shaped : lexeme.HasShape) (behind : List Char)
    (stops : ∀ character ∈ behind.head?, lengthens lexeme.kind character = false) :
    ∃ first others, lexeme.characters = first :: others ∧
      split first (others ++ behind) = (lexeme.kind, others, behind) := by
  have isKind := shaped.wordKind_eq
  rcases lexeme with ⟨kind, start, text⟩
  have ofRun : ∀ belongs : Char → Bool, IsRun belongs text.toList →
      (∀ first rest, belongs first = true →
        split first rest = (kind, rest.takeWhile belongs, rest.dropWhile belongs)) →
      (∀ character ∈ behind.head?, belongs character = false) →
        ∃ first others, text.toList = first :: others ∧
          split first (others ++ behind) = (kind, others, behind) := by
    rintro belongs ⟨nonempty, runs⟩ splits ends
    cases isText : text.toList with
    | nil => exact absurd isText nonempty
    | cons first others =>
        rw [isText, List.forall_mem_cons] at runs
        rcases takeWhile_append_of_stops runs.2 ends with ⟨taken, left⟩
        exact ⟨first, others, rfl, by rw [splits first _ runs.1, taken, left]⟩
  have ofWord : IsWord text.toList → wordKind text.toList = kind →
      (∀ character ∈ behind.head?, continuesWord character = false) →
        ∃ first others, text.toList = first :: others ∧
          split first (others ++ behind) = (kind, others, behind) := by
    rintro ⟨first, others, isText, starts, continues⟩ isKind ends
    rcases takeWhile_append_of_stops continues ends with ⟨taken, left⟩
    refine ⟨first, others, isText, ?_⟩
    rw [split_of_startsWord starts, taken, left, ← isText, isKind]
  have ofPunctuation : (∃ character, text.toList = [character] ∧
      punctuation? character = some kind) → ∃ first others, text.toList = first :: others ∧
        split first (others ++ behind) = (kind, others, behind) := by
    rintro ⟨character, isText, isPunctuation⟩
    exact ⟨character, [], isText, split_of_punctuation? isPunctuation behind⟩
  cases kind with
  | blank => exact ofRun isBlank shaped (fun _ rest blank => split_of_isBlank blank rest) stops
  | garbage =>
      exact ofRun isGarbage shaped (fun _ rest garbage => split_of_isGarbage garbage rest) stops
  | extendsWord =>
      have isText : text = "extends" := shaped
      subst isText
      exact ofWord isWord_extends (by decide) stops
  | superWord =>
      have isText : text = "super" := shaped
      subst isText
      exact ofWord isWord_super (by decide) stops
  | identifier => exact ofWord shaped.1 (isKind rfl) stops
  | angleOpen | angleClose | bracketOpen | bracketClose | comma | dot | question | ampersand =>
      exact ofPunctuation shaped

/--
What is divided off first cannot be lengthened. Only blanks, garbage and words could be at all.
-/
theorem lengthens_split (first : Char) (rest : List Char) :
    ∀ character ∈ (split first rest).2.2.head?,
      lengthens (split first rest).1 character = false := by
  have stops : ∀ belongs : Char → Bool, ∀ character ∈ (rest.dropWhile belongs).head?,
      belongs character = false := by
    intro belongs character isFirst
    have fails := List.head?_dropWhile_not belongs rest
    rw [Option.mem_def.1 isFirst] at fails
    exact fails
  have word : ∀ word : List Char, lengthens (wordKind word) = continuesWord := by
    intro word
    simp only [wordKind]
    split
    · rfl
    · split <;> rfl
  simp only [split]
  split
  · exact stops isBlank
  · split
    · next kind isPunctuation =>
      have alone : lengthens kind = fun _ => false := by
        simp only [punctuation?] at isPunctuation
        split at isPunctuation <;> cases isPunctuation <;> rfl
      simp [alone]
    · split
      · rw [word]
        exact stops continuesWord
      · exact stops isGarbage

/-- An offset divides a text in only one way. -/
theorem eq_of_utf8ByteSize_eq {before other behind otherBehind : String}
    (same : before ++ behind = other ++ otherBehind)
    (sameSize : before.utf8ByteSize = other.utf8ByteSize) :
    before = other ∧ behind = otherBehind := by
  have nothing : ∀ {shorter longer : String} {more : List Char},
      longer.toList = shorter.toList ++ more → shorter.utf8ByteSize = longer.utf8ByteSize →
        longer = shorter := by
    intro shorter longer more isMore sameSize
    have isLonger : longer = shorter ++ String.ofList more := by
      rw [← String.toList_inj, String.toList_append, String.toList_ofList, isMore]
    have noBytes : (String.ofList more).utf8ByteSize = 0 := by
      rw [isLonger, String.utf8ByteSize_append] at sameSize
      omega
    rw [isLonger, String.utf8ByteSize_eq_zero_iff.1 noBytes, String.append_empty]
  have sameBefore : before = other := by
    have characters := congrArg String.toList same
    simp only [String.toList_append] at characters
    rcases List.append_eq_append_iff.1 characters with ⟨more, isMore, -⟩ | ⟨more, isMore, -⟩
    · exact (nothing isMore sameSize).symm
    · exact nothing isMore sameSize.symm
  subst sameBefore
  exact ⟨rfl, (String.append_right_inj before).1 same⟩

/-- The offset of a lexeme tells what stands before and behind it. -/
theorem Divides.unique {lexeme : Lexeme} {text before other behind otherBehind : String}
    (divides : lexeme.Divides text before behind)
    (divided : lexeme.Divides text other otherBehind) : before = other ∧ behind = otherBehind := by
  rcases divides with ⟨isText, isStart⟩
  rcases divided with ⟨rfl, isOtherStart⟩
  rw [String.append_assoc, String.append_assoc] at isText
  rcases eq_of_utf8ByteSize_eq isText (isOtherStart.trans isStart.symm) with ⟨sameBefore, same⟩
  exact ⟨sameBefore.symm, ((String.append_right_inj lexeme.text).1 same).symm⟩

theorem HasShape.text_ne_empty {lexeme : Lexeme} (shaped : lexeme.HasShape) : lexeme.text ≠ "" := by
  intro isEmpty
  rcases shaped.split_eq [] (by simp) with ⟨first, others, isText, -⟩
  simp [characters, isEmpty] at isText

theorem ofList_eq_append_split (first : Char) (rest : List Char) :
    String.ofList (first :: rest) =
      String.ofList (first :: (split first rest).2.1) ++ String.ofList (split first rest).2.2 := by
  rw [← String.ofList_append, List.cons_append, split_append]

/--
The lexemes that the scan finds stand next to each other, from the start to the end of the
characters.
-/
theorem areAdjacent_scanFrom (start : Nat) (rest : List Char) :
    AreAdjacent start (start + (String.ofList rest).utf8ByteSize) (scanFrom start rest) := by
  fun_induction scanFrom start rest with
  | case1 start => simp [AreAdjacent]
  | case2 start first rest text ih =>
      refine ⟨rfl, ?_⟩
      rw [ofList_eq_append_split, String.utf8ByteSize_append, ← Nat.add_assoc]
      exact ih

/-- What the scan finds in the rest of a text are pieces of the text. -/
theorem isPieceOf_of_mem_scanFrom {text before : String} {start : Nat} {rest : List Char}
    (isText : text = before ++ String.ofList rest) (isStart : before.utf8ByteSize = start) :
    ∀ lexeme ∈ scanFrom start rest, lexeme.IsPieceOf text := by
  fun_induction scanFrom start rest generalizing before with
  | case1 => simp
  | case2 start first rest word =>
      rename_i ih
      rw [ofList_eq_append_split] at isText
      have shaped := split_hasShape start first rest
      have divides : Divides ⟨(split first rest).1, start, word⟩ text before
          (String.ofList (split first rest).2.2) := ⟨by rw [isText, String.append_assoc], isStart⟩
      refine List.forall_mem_cons.2 ⟨⟨⟨_, _, divides⟩, ?_, shaped, ?_⟩, ?_⟩
      · have bytes : 0 < word.utf8ByteSize :=
          Nat.pos_of_ne_zero fun none =>
            shaped.text_ne_empty (String.utf8ByteSize_eq_zero_iff.1 none)
        exact Nat.lt_add_of_pos_right bytes
      · intro other behind divided
        rw [← (divides.unique divided).2, String.toList_ofList]
        exact lengthens_split first rest
      · have isRest : text = before ++ word ++ String.ofList (split first rest).2.2 := by
          rw [isText, String.append_assoc]
        exact ih isRest (by rw [String.utf8ByteSize_append, isStart])

/-- A piece that the rest of a text begins with is what is divided off first there. -/
theorem IsPieceOf.scanFrom_eq {lexeme : Lexeme} {text before : String} {rest : List Char}
    (piece : lexeme.IsPieceOf text) (isText : text = before ++ String.ofList rest)
    (isStart : lexeme.start = before.utf8ByteSize) :
    ∃ behind : String, text = before ++ lexeme.text ++ behind ∧
      scanFrom before.utf8ByteSize rest = lexeme :: scanFrom lexeme.stop behind.toList := by
  rcases piece with ⟨⟨other, behind, divides⟩, -, shaped, maximal⟩
  rcases shaped.split_eq behind.toList (maximal other behind divides) with
    ⟨first, more, isLexeme, isSplit⟩
  rcases divides with ⟨isDivided, isOther⟩
  have same : before ++ String.ofList rest = other ++ (lexeme.text ++ behind) := by
    rw [← isText, isDivided, String.append_assoc]
  rcases eq_of_utf8ByteSize_eq same (isStart.symm.trans isOther.symm) with ⟨rfl, isRest⟩
  have isCharacters : rest = first :: (more ++ behind.toList) := by
    have sameCharacters := congrArg String.toList isRest
    rw [String.toList_ofList, String.toList_append] at sameCharacters
    rw [sameCharacters, ← List.cons_append, ← isLexeme]
    rfl
  have isWord : String.ofList (first :: more) = lexeme.text := by
    rw [← isLexeme, characters, String.ofList_toList]
  refine ⟨behind, isDivided, ?_⟩
  rw [isCharacters, scanFrom, isSplit, isWord, ← isStart]
  rfl

/-- Adjacent pieces from some place of a text to its end are what the scan finds there. -/
theorem eq_scanFrom_of_pieces {text before : String} {rest : List Char} {lexemes : List Lexeme}
    (isText : text = before ++ String.ofList rest)
    (adjacent : AreAdjacent before.utf8ByteSize text.utf8ByteSize lexemes)
    (pieces : ∀ lexeme ∈ lexemes, lexeme.IsPieceOf text) :
    lexemes = scanFrom before.utf8ByteSize rest := by
  induction lexemes generalizing before rest with
  | nil =>
      have sameSize : before.utf8ByteSize = text.utf8ByteSize := adjacent
      have noBytes : (String.ofList rest).utf8ByteSize = 0 := by
        rw [isText, String.utf8ByteSize_append] at sameSize
        omega
      have isEmpty : rest = [] := by
        simpa using congrArg String.toList (String.utf8ByteSize_eq_zero_iff.1 noBytes)
      rw [isEmpty, scanFrom]
  | cons lexeme lexemes ih =>
      rcases List.forall_mem_cons.1 pieces with ⟨piece, others⟩
      rcases adjacent with ⟨isStart, adjacent⟩
      rcases piece.scanFrom_eq isText isStart with ⟨behind, isDivided, isScan⟩
      have isStop : lexeme.stop = (before ++ lexeme.text).utf8ByteSize := by
        rw [stop, isStart, String.utf8ByteSize_append]
      have isRest : text = before ++ lexeme.text ++ String.ofList behind.toList := by
        rw [isDivided, String.ofList_toList]
      rw [isStop] at isScan adjacent
      rw [isScan, ih isRest adjacent others]

theorem AreAdjacent.le {start stop : Nat} {lexemes : List Lexeme}
    (adjacent : AreAdjacent start stop lexemes) : start ≤ stop := by
  induction lexemes generalizing start with
  | nil => exact Nat.le_of_eq adjacent
  | cons first rest ih =>
      rcases adjacent with ⟨rfl, adjacent⟩
      exact (Nat.le_add_right _ _).trans (ih adjacent)

theorem AreAdjacent.within {start stop : Nat} {lexemes : List Lexeme}
    (adjacent : AreAdjacent start stop lexemes) :
    ∀ lexeme ∈ lexemes, start ≤ lexeme.start ∧ lexeme.stop ≤ stop := by
  induction lexemes generalizing start with
  | nil => simp
  | cons first rest ih =>
      rcases adjacent with ⟨rfl, adjacent⟩
      refine List.forall_mem_cons.2 ⟨⟨Nat.le_refl _, adjacent.le⟩, ?_⟩
      intro lexeme member
      rcases ih adjacent lexeme member with ⟨starts, stops⟩
      exact ⟨(Nat.le_add_right _ _).trans starts, stops⟩

/-- Adjacent lexemes do not overlap. -/
theorem AreAdjacent.pairwise {start stop : Nat} {lexemes : List Lexeme}
    (adjacent : AreAdjacent start stop lexemes) :
    lexemes.Pairwise fun first second => first.stop ≤ second.start := by
  induction lexemes generalizing start with
  | nil => exact .nil
  | cons first rest ih =>
      exact .cons (fun lexeme member => (adjacent.2.within lexeme member).1) (ih adjacent.2)

end Lexeme

/--
The scan gives the only division of a text: non-empty pieces without gap or overlap, each of the
shape of its kind and none followed by a character that would lengthen it.
-/
theorem isTokenization_iff_eq_scan (text : String) (lexemes : List Lexeme) :
    IsTokenization text lexemes ↔ lexemes = Lexeme.scan text := by
  have isText : text = "" ++ String.ofList text.toList := by simp
  constructor
  · rintro ⟨pieces, adjacent⟩
    exact Lexeme.eq_scanFrom_of_pieces isText adjacent pieces
  · rintro rfl
    refine ⟨Lexeme.isPieceOf_of_mem_scanFrom isText rfl, ?_⟩
    simpa [Lexeme.scan] using Lexeme.areAdjacent_scanFrom 0 text.toList

end NominalTypes
