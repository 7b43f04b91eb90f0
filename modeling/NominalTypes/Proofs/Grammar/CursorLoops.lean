import NominalTypes.Proofs.Grammar.CursorRuns

/-!
# Lexemes and loops at a cursor

The steps of a cursor from one lexeme to the next agree with taking lexemes off a list without
blanks, and so do loops over lexemes. Each round of a loop comes behind a lexeme of its own, so that
more steps than there are lexemes ahead are enough.
-/

namespace NominalTypes

namespace Grammar

/-- Reads behind a lexeme of the kind if one comes next. -/
def readBehind {result : Type} (kind : LexemeKind) (nothing : result) (read : LexemeReader result) :
    LexemeReader result
  | [] => .ok (nothing, [])
  | lexeme :: rest => if lexeme.kind = kind then read rest else .ok (nothing, lexeme :: rest)

theorem readBehind_of_not {result : Type} {kind : LexemeKind} {nothing : result}
    {read : LexemeReader result} {lexemes : List Lexeme}
    (starts : startsWith kind lexemes = false) :
    readBehind kind nothing read lexemes = .ok (nothing, lexemes) := by
  cases lexemes with
  | nil => rfl
  | cons lexeme rest =>
      have notKind : ¬lexeme.kind = kind := by simpa [startsWith] using starts
      rw [readBehind, if_neg notKind]

/--
A loop over pairs of lexemes reads a pair and goes on behind it, as long as the first one comes
next.
-/
theorem RepeatsPairs.eq_readBehind {result : Type} {length : Nat} {opening closing : LexemeKind}
    {combine : String → result → result} {nothing : result} {read : LexemeReader result}
    (pairs : RepeatsPairs length opening closing combine nothing read) (lexemes : List Lexeme) :
    read lexemes = readBehind opening nothing (fun rest => do
      let (text, behind) ← expect length closing rest
      let (value, remaining) ← read behind
      .ok (combine text value, remaining)) lexemes := by
  cases starts : startsWith opening lexemes with
  | false => rw [pairs.stop lexemes starts, readBehind_of_not starts]
  | true =>
      rcases startsWith_eq_true_iff.1 starts with ⟨lexeme, rest, rfl, isOpening⟩
      rw [pairs.go lexeme rest isOpening, readBehind, if_pos isOpening]

/-- Separated items are the first one and, behind a separator, the others. -/
theorem separated_succ {item : Type} (separator : LexemeKind) (read : LexemeReader item)
    (count : Nat) (lexemes : List Lexeme) :
    separated separator read (count + 1) lexemes = (do
      let (first, rest) ← read lexemes
      let (further, remaining) ← readBehind separator [] (separated separator read count) rest
      .ok (first :: further, remaining)) := by
  rw [separated]
  refine bind_congr fun ⟨first, rest⟩ => ?_
  cases rest with
  | nil => rfl
  | cons lexeme behind =>
      by_cases isSeparator : lexeme.kind = separator
      · simp only [readBehind, if_pos isSeparator]
      · simp only [readBehind, if_neg isSeparator]
        rfl

end Grammar

namespace CursorReader

open Grammar (startsWith startsWith_eq_true_iff readBehind readBehind_of_not)

section

variable {result value : Type} {lexemes : List Lexeme} {limit : UInt32} {least length : Nat}
  {cursor : Cursor}

theorem filter_dropWhile_isTrivia (rest : List Lexeme) :
    (rest.dropWhile Lexeme.isTrivia).filter (fun lexeme => !lexeme.isTrivia) =
      rest.filter fun lexeme => !lexeme.isTrivia := by
  have blanks : (rest.takeWhile Lexeme.isTrivia).filter (fun lexeme => !lexeme.isTrivia) = [] := by
    refine List.filter_eq_nil_iff.2 fun lexeme member => ?_
    simp [List.mem_takeWhile_imp member]
  conv_rhs => rw [← List.takeWhile_append_dropWhile (p := Lexeme.isTrivia) (l := rest),
    List.filter_append, blanks, List.nil_append]

/-- Skipping blanks goes on to the next lexeme ahead, and keeps what lies ahead. -/
theorem exists_skipped (sound : cursor.IsSound lexemes limit) :
    ∃ skipped, (skipBlanks lexemes).runAt cursor = .ok (.ok (), skipped) ∧
      cursor.Reaches lexemes limit skipped ∧ skipped.ahead lexemes = cursor.ahead lexemes ∧
      (lexemes.drop skipped.place.position).head? = (cursor.ahead lexemes).head? := by
  obtain ⟨rest, isRest⟩ : ∃ rest, rest = lexemes.drop cursor.place.position := ⟨_, rfl⟩
  obtain ⟨blanks, areBlanks⟩ : ∃ blanks, blanks = rest.takeWhile Lexeme.isTrivia := ⟨_, rfl⟩
  have split : blanks ++ rest.dropWhile Lexeme.isTrivia = rest :=
    areBlanks ▸ List.takeWhile_append_dropWhile
  have behind : lexemes.drop (cursor.place.position + blanks.length) =
      rest.dropWhile Lexeme.isTrivia := by
    rw [← List.drop_drop, ← isRest]
    exact (congrArg (List.drop blanks.length) split.symm).trans List.drop_left
  have staysWithin : cursor.place.position + blanks.length ≤ lexemes.length := by
    have lengths := congrArg List.length split
    rw [List.length_append, isRest, List.length_drop] at lengths
    have := sound.place_bounded.1
    omega
  have moved := sound.moved
    { cursor.place with position := cursor.place.position + blanks.length }
    (Nat.le_add_right _ _) staysWithin sound.place_bounded.2
  refine ⟨_, ?_, ⟨moved, Nat.le_add_right _ _, rfl⟩, ?_, ?_⟩
  · rw [skipBlanks, runAt_get_bind, ← isRest, ← areBlanks]
    rfl
  · simp only [Cursor.ahead]
    rw [behind, filter_dropWhile_isTrivia, isRest]
  · simp only [Cursor.ahead, List.head?_filter]
    rw [behind, ← isRest, List.find?_eq_head?_dropWhile_not]
    simp

/-- The lexeme that is peeked at is the next one ahead. -/
theorem exists_peeked (sound : cursor.IsSound lexemes limit) :
    ∃ peeked, (peek lexemes).runAt cursor = .ok (.ok (cursor.ahead lexemes).head?, peeked) ∧
      cursor.Reaches lexemes limit peeked ∧ peeked.ahead lexemes = cursor.ahead lexemes ∧
      (lexemes.drop peeked.place.position).head? = (cursor.ahead lexemes).head? := by
  rcases exists_skipped sound with ⟨skipped, run, reaches, isAhead, isNext⟩
  refine ⟨skipped, ?_, reaches, isAhead, isNext⟩
  rw [peek, runAt_bind_of_ok run, runAt_get_bind, ← List.head?_drop, isNext]
  exact runAt_pure _

/-- The kind asked for comes next exactly if the lexemes ahead start with it. -/
theorem exists_isNext (sound : cursor.IsSound lexemes limit) (kind : LexemeKind) :
    ∃ peeked,
      (isNext lexemes kind).runAt cursor =
        .ok (.ok (startsWith kind (cursor.ahead lexemes)), peeked) ∧
      cursor.Reaches lexemes limit peeked ∧ peeked.ahead lexemes = cursor.ahead lexemes := by
  rcases exists_peeked sound with ⟨peeked, run, reaches, isAhead, -⟩
  refine ⟨peeked, ?_, reaches, isAhead⟩
  rw [isNext, runAt_bind_of_ok run]
  cases cursor.ahead lexemes with
  | nil => exact runAt_pure _
  | cons lexeme rest => exact runAt_pure _

/-- Taking a lexeme gives the text of the next one ahead, and leaves the others ahead. -/
theorem exists_bumped (sound : cursor.IsSound lexemes limit) {lexeme : Lexeme} {rest : List Lexeme}
    (areNext : cursor.ahead lexemes = lexeme :: rest) :
    ∃ bumped, (bump lexemes).runAt cursor = .ok (.ok lexeme.text, bumped) ∧
      cursor.Reaches lexemes limit bumped ∧ bumped.ahead lexemes = rest := by
  rcases exists_peeked sound with ⟨peeked, run, reaches, isAhead, isNext⟩
  rw [areNext, List.head?_cons] at run isNext
  rcases List.head?_eq_some_iff.1 isNext with ⟨behind, areBehind⟩
  have isRest : behind.filter (fun other => !other.isTrivia) = rest := by
    have notBlank : lexeme.isTrivia = false := by
      have member : lexeme ∈ cursor.ahead lexemes := areNext ▸ List.mem_cons_self
      simpa using (List.mem_filter.1 member).2
    rw [areNext, Cursor.ahead, areBehind, List.filter_cons_of_pos (by simp [notBlank])] at isAhead
    exact (List.cons.inj isAhead).2
  have staysWithin : peeked.place.position + 1 ≤ lexemes.length := by
    have lengths := congrArg List.length areBehind
    rw [List.length_drop, List.length_cons] at lengths
    omega
  have moved := reaches.sound.moved { peeked.place with position := peeked.place.position + 1 }
    (Nat.le_add_right _ _) staysWithin reaches.sound.place_bounded.2
  refine ⟨_, ?_, reaches.trans ⟨moved, Nat.le_add_right _ _, rfl⟩, ?_⟩
  · rw [bump, runAt_bind_of_ok run]
    rfl
  · rw [Cursor.ahead, ← List.drop_drop, areBehind]
    exact isRest

theorem exists_notEaten (sound : cursor.IsSound lexemes limit) {kind : LexemeKind}
    (starts : startsWith kind (cursor.ahead lexemes) = false) :
    ∃ peeked, (eat lexemes kind).runAt cursor = .ok (.ok false, peeked) ∧
      cursor.Reaches lexemes limit peeked ∧ peeked.ahead lexemes = cursor.ahead lexemes := by
  rcases exists_isNext sound kind with ⟨peeked, run, reaches, isAhead⟩
  rw [starts] at run
  refine ⟨peeked, ?_, reaches, isAhead⟩
  rw [eat, runAt_bind_of_ok run]
  exact runAt_pure _

/-- A lexeme of the kind that comes next is taken. -/
theorem exists_eaten (sound : cursor.IsSound lexemes limit) {lexeme : Lexeme} {rest : List Lexeme}
    (areNext : cursor.ahead lexemes = lexeme :: rest) :
    ∃ eaten, (eat lexemes lexeme.kind).runAt cursor = .ok (.ok true, eaten) ∧
      cursor.Reaches lexemes limit eaten ∧ eaten.ahead lexemes = rest := by
  rcases exists_isNext sound lexeme.kind with ⟨peeked, run, reaches, isAhead⟩
  rcases exists_bumped reaches.sound (isAhead.trans areNext) with
    ⟨bumped, runBump, reachesBumped, isRest⟩
  have starts : startsWith lexeme.kind (cursor.ahead lexemes) = true := by
    simp [areNext, startsWith]
  rw [starts] at run
  refine ⟨bumped, ?_, reaches.trans reachesBumped, isRest⟩
  rw [eat, runAt_bind_of_ok run, if_pos rfl, runAt_bind_of_ok runBump]
  exact runAt_pure _

theorem unexpected_congr {length : Nat} {expected : Expectation} {left right : List Lexeme}
    (sameNext : left.head? = right.head?) :
    Grammar.unexpected length expected left = Grammar.unexpected length expected right := by
  cases left with
  | nil => rw [List.head?_eq_none_iff.1 sameNext.symm]
  | cons lexeme rest =>
      rcases List.head?_eq_some_iff.1 sameNext.symm with ⟨other, rfl⟩
      rfl

theorem unexpected_follows (sound : cursor.IsSound lexemes limit) (length : Nat)
    (expected : Expectation) :
    Follows lexemes limit least (unexpected lexemes length expected : CursorReader value) cursor
      (.error (Grammar.unexpected length expected (cursor.ahead lexemes))) := by
  rcases exists_skipped sound with ⟨skipped, run, reaches, -, isNext⟩
  refine .error ?_ reaches
  rw [unexpected, runAt_bind_of_ok run, runAt_get_bind, unexpected_congr isNext]
  exact runAt_throw _

/-- A choice by the next lexeme agrees with a reader that each of its branches agrees with. -/
theorem Follows.ifNext {kind : LexemeKind} {read otherwise : CursorReader result}
    {other : Except TypeError (result × List Lexeme)} (sound : cursor.IsSound lexemes limit)
    (isNext : startsWith kind (cursor.ahead lexemes) = true → ∀ peeked,
      cursor.Reaches lexemes limit peeked → peeked.ahead lexemes = cursor.ahead lexemes →
      Follows lexemes limit least read peeked other)
    (isNot : startsWith kind (cursor.ahead lexemes) = false → ∀ peeked,
      cursor.Reaches lexemes limit peeked → peeked.ahead lexemes = cursor.ahead lexemes →
      Follows lexemes limit least otherwise peeked other) :
    Follows lexemes limit least
      (do if ← CursorReader.isNext lexemes kind then read else otherwise) cursor other := by
  rcases exists_isNext sound kind with ⟨peeked, run, reaches, isAhead⟩
  refine .after run reaches ?_
  cases starts : startsWith kind (cursor.ahead lexemes) with
  | false => exact isNot starts peeked reaches isAhead
  | true => exact isNext starts peeked reaches isAhead

/-- Expecting a kind takes one lexeme of this kind, or fails as the reader of the list does. -/
theorem expect_follows (sound : cursor.IsSound lexemes limit) (length : Nat) (kind : LexemeKind) :
    Follows lexemes limit 1 (expect lexemes length kind) cursor
      (Grammar.expect length kind (cursor.ahead lexemes)) := by
  refine .ifNext sound ?_ ?_
  · intro starts peeked reaches isAhead
    rcases startsWith_eq_true_iff.1 starts with ⟨lexeme, rest, areNext, rfl⟩
    rcases exists_bumped reaches.sound (isAhead.trans areNext) with
      ⟨bumped, run, reachesBumped, rfl⟩
    rw [areNext, Grammar.expect, if_pos rfl]
    exact .ok run reachesBumped (by rw [isAhead, areNext, List.length_cons])
  · intro starts peeked reaches isAhead
    have isError : Grammar.expect length kind (cursor.ahead lexemes) =
        .error (Grammar.unexpected length (.lexeme kind) (cursor.ahead lexemes)) := by
      cases areNext : cursor.ahead lexemes with
      | nil => rfl
      | cons lexeme rest => simpa [areNext, startsWith, Grammar.expect] using starts
    rw [isError, ← isAhead]
    exact unexpected_follows reaches.sound length (.lexeme kind)

/-- Reading behind a lexeme agrees with the reader if the reading behind it does. -/
theorem readBehind_follows {kind : LexemeKind} {nothing : result} {read : CursorReader result}
    {reader : LexemeReader result} (sound : cursor.IsSound lexemes limit)
    (behind : ∀ eaten, cursor.Reaches lexemes limit eaten →
      (eaten.ahead lexemes).length + 1 = (cursor.ahead lexemes).length →
      Follows lexemes limit 0 read eaten (reader (eaten.ahead lexemes))) :
    Follows lexemes limit 0 (do if ← eat lexemes kind then read else return nothing) cursor
      (readBehind kind nothing reader (cursor.ahead lexemes)) := by
  cases starts : startsWith kind (cursor.ahead lexemes) with
  | false =>
      rcases exists_notEaten sound starts with ⟨peeked, run, reaches, isAhead⟩
      rw [readBehind_of_not starts, ← isAhead]
      exact .after run reaches (.pure reaches.sound nothing)
  | true =>
      rcases startsWith_eq_true_iff.1 starts with ⟨lexeme, rest, areNext, rfl⟩
      rcases exists_eaten sound areNext with ⟨eaten, run, reaches, rfl⟩
      rw [areNext, readBehind, if_pos rfl]
      exact .after run reaches (behind eaten reaches (by rw [areNext, List.length_cons]))

/--
A loop over pairs agrees with the reader if it may take more steps than there are lexemes ahead.
-/
theorem repeated_follows {opening closing : LexemeKind} {combine : String → result → result}
    {nothing : result} {reader : LexemeReader result}
    (pairs : Grammar.RepeatsPairs length opening closing combine nothing reader) (steps : Nat)
    (sound : cursor.IsSound lexemes limit) (enough : (cursor.ahead lexemes).length < steps) :
    Follows lexemes limit 0
      (repeated lexemes opening (expect lexemes length closing) combine nothing steps) cursor
      (reader (cursor.ahead lexemes)) := by
  induction steps generalizing cursor with
  | zero => exact absurd enough (Nat.not_lt_zero _)
  | succ steps ih =>
      rw [pairs.eq_readBehind]
      refine readBehind_follows sound fun eaten reaches fewer => ?_
      have first := (expect_follows reaches.sound length closing).mono (Nat.zero_le _)
      refine first.bind fun text middle reachesMiddle takes => ?_
      have others := ih reachesMiddle.sound (by omega)
      exact others.bind fun value last reachesLast _ => .pure reachesLast.sound _

/-- The reading follows the reader from each cursor on the level with fewer than `most` lexemes. -/
def Performs (lexemes : List Lexeme) (limit level : UInt32) (most least : Nat)
    (read : CursorReader result) (reader : LexemeReader result) : Prop :=
  ∀ cursor : Cursor, cursor.IsSound lexemes limit → cursor.place.level = level →
    (cursor.ahead lexemes).length < most →
    Follows lexemes limit least read cursor (reader (cursor.ahead lexemes))

/--
A loop over separated items agrees with the reader of the list if its items do. Where nothing lies
ahead any more, no separator comes next either, so that no round is missing.
-/
theorem separated_follows {level : UInt32} {most : Nat} {item : CursorReader value}
    {reader : LexemeReader value}
    (performs : Performs lexemes limit level most least item reader) (separator : LexemeKind)
    (steps : Nat) {count : Nat} (sound : cursor.IsSound lexemes limit)
    (isLevel : cursor.place.level = level) (isMost : (cursor.ahead lexemes).length < most)
    (enough : (cursor.ahead lexemes).length < steps)
    (isCount : (cursor.ahead lexemes).length ≤ count) :
    Follows lexemes limit least (separated lexemes separator item steps) cursor
      (Grammar.separated separator reader count (cursor.ahead lexemes)) := by
  induction steps generalizing cursor count with
  | zero => exact absurd enough (Nat.not_lt_zero _)
  | succ steps ih =>
      have first := performs cursor sound isLevel isMost
      have further : ∀ middle, cursor.Reaches lexemes limit middle →
          Follows lexemes limit 0 (repeated lexemes separator item List.cons [] (steps + 1)) middle
            (readBehind separator [] (Grammar.separated separator reader (count - 1))
              (middle.ahead lexemes)) := by
        intro middle reaches
        have fewer := reaches.length_ahead_le
        refine readBehind_follows reaches.sound fun eaten reachesEaten taken => ?_
        have isLevelEaten := (reachesEaten.level.trans reaches.level).trans isLevel
        exact (ih reachesEaten.sound isLevelEaten (by omega) (by omega) (by omega)).mono
          (Nat.zero_le _)
      cases count with
      | zero =>
          refine first.bind fun head middle reaches _ => ?_
          have isDone : middle.ahead lexemes = [] :=
            List.length_eq_zero_iff.1 (Nat.le_zero.1 (reaches.length_ahead_le.trans isCount))
          have others : Follows lexemes limit 0
              (repeated lexemes separator item List.cons [] (steps + 1)) middle
              (.ok ([], middle.ahead lexemes)) := by
            simpa only [isDone, readBehind] using further middle reaches
          change Follows lexemes limit 0 _ middle (Except.ok ([], middle.ahead lexemes) >>=
            fun further => .ok (head :: further.1, further.2))
          exact others.bind fun _ last reachesLast _ => .pure reachesLast.sound _
      | succ count =>
          rw [Grammar.separated_succ]
          refine first.bind fun head middle reaches _ => ?_
          exact (further middle reaches).bind fun others last reachesLast _ =>
            .pure reachesLast.sound _

/-- A name with its segments is read from the cursor as it is from the lexemes ahead. -/
theorem qualifiedName_follows {steps : Nat} (sound : cursor.IsSound lexemes limit)
    (enough : (cursor.ahead lexemes).length ≤ steps) :
    Follows lexemes limit 1 (qualifiedName lexemes length steps) cursor
      (Grammar.qualifiedName length (cursor.ahead lexemes)) := by
  refine (expect_follows sound length .identifier).bind fun first middle reaches takes => ?_
  have further := repeated_follows (Grammar.furtherSegments_repeatsPairs length) steps
    reaches.sound (by omega)
  exact further.bind fun segments last reachesLast _ => .pure reachesLast.sound _

/-- Array suffixes are counted from the cursor as they are in the lexemes ahead. -/
theorem arraySuffixes_follows {steps : Nat} (sound : cursor.IsSound lexemes limit)
    (enough : (cursor.ahead lexemes).length < steps) :
    Follows lexemes limit 0 (arraySuffixes lexemes length steps) cursor
      (Grammar.arraySuffixes length (cursor.ahead lexemes)) :=
  repeated_follows (Grammar.arraySuffixes_repeatsPairs length) steps sound enough

end

end CursorReader

end NominalTypes
