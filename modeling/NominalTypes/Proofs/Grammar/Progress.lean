import NominalTypes.Proofs.Grammar.CursorLoops
import NominalTypes.Proofs.Grammar.RoundTrip

/-!
# Progress of a cursor

With more steps than there are lexemes, reading with a cursor is never interrupted: the counter of
nesting levels stays between zero and the limit, and each loop and each nested type comes behind a
lexeme of its own. So the reading ends, its run is sound, and it gives what is read from the
significant lexemes alone.
-/

namespace NominalTypes

namespace Grammar

theorem boundsBehind_eq_readBehind (keyword : LexemeKind) (read : LexemeReader Ty)
    (lexemes : List Lexeme) :
    boundsBehind keyword read lexemes =
      readBehind keyword [] (fun rest => separated .ampersand (bound read) rest.length rest)
        lexemes := by
  cases lexemes <;> rfl

section

variable {scope : Scope} {length levels : Nat} {read : LexemeReader Ty} {lexemes : List Lexeme}

/-- Reads type arguments in angle brackets. -/
def arguments (length : Nat) (read : LexemeReader Ty) : LexemeReader (List Ty) := fun lexemes => do
  let (_, rest) ← expect length .angleOpen lexemes
  let (found, behind) ← separated .comma read rest.length rest
  let (_, remaining) ← expect length .angleClose behind
  .ok (found, remaining)

/--
The arguments of a class are separated by commas behind an opening bracket, and a closing one
follows.
-/
theorem application_eq_readBehind (referent : Referent) (lexemes : List Lexeme) :
    application scope length read referent lexemes =
      readBehind .angleOpen referent.toTy (fun rest => do
        let (found, behind) ← separated .comma read rest.length rest
        let (_, remaining) ← expect length .angleClose behind
        let ty ← applied scope found referent
        .ok (ty, remaining)) lexemes := by
  cases lexemes <;> rfl

theorem application_of_startsWith {referent : Referent}
    (starts : startsWith .angleOpen lexemes = true) :
    application scope length read referent lexemes = (do
      let (found, remaining) ← arguments length read lexemes
      let ty ← applied scope found referent
      .ok (ty, remaining)) := by
  rcases startsWith_eq_true_iff.1 starts with ⟨lexeme, rest, rfl, isOpen⟩
  simp only [application, arguments, expect, if_pos isOpen, bind_assoc]
  rfl

theorem type_succ_of_startsWith (starts : startsWith .question lexemes = true) :
    type scope length (levels + 1) lexemes =
      (expect length .question lexemes >>= fun question =>
        wildcardBounds (type scope length levels) question.2) := by
  rcases startsWith_eq_true_iff.1 starts with ⟨lexeme, rest, rfl, isQuestion⟩
  rw [type_succ_eq_wildcardBounds isQuestion, expect, if_pos isQuestion]
  rfl

/-- A text that is not empty is read as a type behind which nothing is left. -/
theorem map_root_cons (lexeme : Lexeme) (rest : List Lexeme) :
    (root scope length levels (lexeme :: rest)).map (fun ty => (ty, ([] : List Lexeme))) =
      (type scope length levels (lexeme :: rest) >>= fun (ty, remaining) =>
        if remaining = [] then .ok (ty, [])
        else .error (unexpected length .endOfInput remaining)) := by
  rw [root]
  cases type scope length levels (lexeme :: rest) with
  | error cause => rfl
  | ok typed =>
      rcases typed with ⟨ty, _ | ⟨next, behind⟩⟩
      · rfl
      · rfl

end

end Grammar

namespace CursorReader

section

variable {scope : Scope} {lexemes : List Lexeme} {limit level : UInt32} {length steps least : Nat}
  {cursor : Cursor} {read : CursorReader Ty} {reader : LexemeReader Ty}

/--
Type arguments are read from the cursor as they are from the lexemes ahead, if their types are.
-/
theorem arguments_follows (length : Nat)
    (performs : Performs lexemes limit level steps least read reader)
    (sound : cursor.IsSound lexemes limit) (isLevel : cursor.place.level = level)
    (enough : (cursor.ahead lexemes).length < steps) :
    Follows lexemes limit 1 (arguments lexemes length read steps) cursor
      (Grammar.arguments length reader (cursor.ahead lexemes)) := by
  refine (expect_follows sound length .angleOpen).bind fun _ opened reaches takes => ?_
  have found := (separated_follows performs .comma steps reaches.sound (reaches.level.trans isLevel)
    (by omega) (by omega) le_rfl).mono (Nat.zero_le least)
  refine found.bind fun found listed reachesListed _ => ?_
  have closing := (expect_follows reachesListed.sound length .angleClose).mono (Nat.zero_le 1)
  exact closing.bind fun _ closed reachesClosed _ => .pure reachesClosed.sound found

/-- A class is applied at the cursor as it is to the arguments ahead. -/
theorem application_follows (performs : Performs lexemes limit level steps least read reader)
    (sound : cursor.IsSound lexemes limit) (isLevel : cursor.place.level = level)
    (enough : (cursor.ahead lexemes).length < steps) (referent : Referent) :
    Follows lexemes limit 0 (application lexemes length scope read steps referent) cursor
      (Grammar.application scope length reader referent (cursor.ahead lexemes)) := by
  refine .ifNext sound ?_ ?_
  · intro starts peeked reaches isAhead
    rw [Grammar.application_of_startsWith starts, ← isAhead]
    have found := (arguments_follows length performs reaches.sound (reaches.level.trans isLevel)
      (isAhead ▸ enough)).mono (Nat.zero_le 1)
    exact found.bind fun found last reachesLast _ => .ofOutcome reachesLast.sound _
  · intro starts peeked reaches isAhead
    rw [Grammar.application_eq_readBehind, Grammar.readBehind_of_not starts, ← isAhead]
    exact .pure reaches.sound referent.toTy

/--
Named types are read from the cursor as they are from the lexemes ahead, if the types in them are.
-/
theorem namedType_follows (performs : Performs lexemes limit level steps least read reader)
    (sound : cursor.IsSound lexemes limit) (isLevel : cursor.place.level = level)
    (enough : (cursor.ahead lexemes).length ≤ steps) :
    Follows lexemes limit 1 (namedType lexemes length scope read steps) cursor
      (Grammar.namedType scope length reader (cursor.ahead lexemes)) := by
  refine (qualifiedName_follows sound enough).bind fun segments named reaches takes => ?_
  refine (arraySuffixes_follows reaches.sound (by omega)).bind
    fun innerDims suffixed reachesSuffixed fewer => ?_
  refine .check reachesSuffixed.sound fun referent => ?_
  have isLevelSuffixed := (reachesSuffixed.level.trans reaches.level).trans isLevel
  refine (application_follows performs reachesSuffixed.sound isLevelSuffixed (by omega)
    referent).bind fun ty applied reachesApplied fewerAgain => ?_
  refine (arraySuffixes_follows reachesApplied.sound (by omega)).bind
    fun outerDims last reachesLast _ => ?_
  by_cases tooMany : 255 < innerDims + outerDims
  · simp only [if_pos tooMany]
    exact .throw reachesLast.sound _
  · simp only [if_neg tooMany]
    exact .pure reachesLast.sound _

/-- A reading on the next level agrees with its reader, which is told how many levels are left. -/
theorem nested_follows {inner : CursorReader Ty}
    (outcomes : Nat → Except TypeError (Ty × List Lexeme)) (sound : cursor.IsSound lexemes limit)
    (exceeded : outcomes 0 = .error .recursionLimitExceeded)
    (within : ∀ entered : Cursor, entered.IsSound lexemes limit →
      entered.ahead lexemes = cursor.ahead lexemes →
      Follows lexemes limit least inner entered
        (outcomes (limit.toNat - entered.place.level.toNat + 1))) :
    Follows lexemes limit least (nested limit inner) cursor
      (outcomes (limit.toNat - cursor.place.level.toNat)) := by
  by_cases isBelow : cursor.place.level < limit
  · refine .nested sound isBelow fun entered soundEntered isEntered => ?_
    have levels : limit.toNat - cursor.place.level.toNat =
        limit.toNat - entered.place.level.toNat + 1 := by
      rw [isEntered, toNat_levelSucc isBelow]
      have := UInt32.lt_iff_toNat_lt.1 isBelow
      omega
    rw [levels]
    exact within entered soundEntered (by simp [Cursor.ahead, isEntered])
  · have isLast := UInt32.not_lt.1 isBelow
    rw [Nat.sub_eq_zero_of_le (UInt32.le_iff_toNat_le.1 isLast), exceeded]
    exact nested_of_exceeded sound isLast

/-- On each level the reading of types follows their reader with the levels that are left. -/
def ReadsTypes (lexemes : List Lexeme) (limit : UInt32) (length : Nat) (scope : Scope) (most : Nat)
    (read : CursorReader Ty) : Prop :=
  ∀ level, Performs lexemes limit level most 1 read
    (Grammar.type scope length (limit.toNat - level.toNat))

/-- Bounds are read from the cursor on every level, if types are. -/
theorem bound_performs (reads : ReadsTypes lexemes limit length scope steps read) (level : UInt32) :
    Performs lexemes limit level (steps + 1) 1 (bound lexemes length scope limit read steps)
      (Grammar.bound (Grammar.type scope length (limit.toNat - level.toNat))) := by
  rintro cursor sound rfl enough
  refine .recorded (.ifNext sound ?_ ?_)
  · intro starts peeked reaches _
    rw [Grammar.bound, if_pos starts]
    exact .throw reaches.sound _
  · intro starts peeked reaches isAhead
    rw [Grammar.bound, if_neg (by simp [starts]), ← isAhead, ← reaches.level]
    refine nested_follows (fun levels => Grammar.type scope length levels (peeked.ahead lexemes))
      reaches.sound rfl fun entered soundEntered sameAhead => ?_
    rw [Grammar.type_succ_eq_namedType (isAhead ▸ starts), ← sameAhead]
    exact namedType_follows (reads _) soundEntered rfl (by rw [sameAhead, isAhead]; omega)

theorem boundsBehind_follows (reads : ReadsTypes lexemes limit length scope steps read)
    (keyword : LexemeKind) (sound : cursor.IsSound lexemes limit)
    (isLevel : cursor.place.level = level) (enough : (cursor.ahead lexemes).length < steps) :
    Follows lexemes limit 0 (boundsBehind lexemes length scope limit keyword read steps) cursor
      (Grammar.boundsBehind keyword (Grammar.type scope length (limit.toNat - level.toNat))
        (cursor.ahead lexemes)) := by
  rw [Grammar.boundsBehind_eq_readBehind]
  refine readBehind_follows sound fun eaten reaches fewer => ?_
  exact (separated_follows (bound_performs reads level) .ampersand steps reaches.sound
    (reaches.level.trans isLevel) (by omega) (by omega) le_rfl).mono (Nat.zero_le 1)

/-- Wildcards are read from the cursor as they are from the lexemes ahead, if types are. -/
theorem wildcard_follows (reads : ReadsTypes lexemes limit length scope steps read)
    (sound : cursor.IsSound lexemes limit) (isLevel : cursor.place.level = level)
    (enough : (cursor.ahead lexemes).length ≤ steps) :
    Follows lexemes limit 1 (wildcard lexemes length scope limit read steps) cursor
      (Grammar.expect length .question (cursor.ahead lexemes) >>= fun question =>
        Grammar.wildcardBounds (Grammar.type scope length (limit.toNat - level.toNat))
          question.2) := by
  refine (expect_follows sound length .question).bind fun _ marked reaches takes => ?_
  have isLevelMarked := reaches.level.trans isLevel
  refine (boundsBehind_follows reads .extendsWord reaches.sound isLevelMarked (by omega)).bind
    fun upper bounded reachesBounded fewer => ?_
  refine (boundsBehind_follows reads .superWord reachesBounded.sound
    (reachesBounded.level.trans isLevelMarked) (by omega)).bind fun lower last reachesLast _ => ?_
  exact .pure reachesLast.sound _

/--
Types are read from the cursor on every level as they are from the lexemes ahead, by induction on
the steps. A nested type comes behind a lexeme of its own, so that each step less leaves a lexeme
less.
-/
theorem readsTypes (lexemes : List Lexeme) (limit : UInt32) (length : Nat) (scope : Scope)
    (steps : Nat) :
    ReadsTypes lexemes limit length scope steps (type lexemes length scope limit steps) := by
  induction steps with
  | zero => exact fun _ cursor _ _ enough => absurd enough (Nat.not_lt_zero _)
  | succ steps ih =>
      rintro level cursor sound rfl enough
      refine .recorded (nested_follows
        (fun levels => Grammar.type scope length levels (cursor.ahead lexemes)) sound rfl
        fun entered soundEntered sameAhead => ?_)
      rw [← sameAhead] at enough ⊢
      refine .ifNext soundEntered ?_ ?_
      · intro starts peeked reaches isAhead
        rw [Grammar.type_succ_of_startsWith starts, ← isAhead]
        exact wildcard_follows ih reaches.sound reaches.level (by rw [isAhead]; omega)
      · intro starts peeked reaches isAhead
        rw [Grammar.type_succ_eq_namedType starts, ← isAhead]
        exact namedType_follows (ih _) reaches.sound reaches.level (by rw [isAhead]; omega)

/-- A whole text is read from the cursor as it is from its significant lexemes. -/
theorem root_follows (sound : cursor.IsSound lexemes limit) (isOutside : cursor.place.level = 0)
    (enough : (cursor.ahead lexemes).length < steps) :
    Follows lexemes limit 0 (root lexemes length scope limit steps) cursor
      ((Grammar.root scope length limit.toNat (cursor.ahead lexemes)).map fun ty => (ty, [])) := by
  rcases exists_peeked sound with ⟨peeked, run, reaches, isAhead, -⟩
  refine .after run reaches ?_
  cases areNext : cursor.ahead lexemes with
  | nil =>
      have failed : Follows lexemes limit 0
          (unexpected lexemes length .type : CursorReader Ty) peeked
          (.error (Grammar.unexpected length .type (peeked.ahead lexemes))) :=
        unexpected_follows reaches.sound length .type
      rw [isAhead, areNext] at failed
      exact failed
  | cons lexeme rest =>
      have isLevel := reaches.level.trans isOutside
      have first := (readsTypes lexemes limit length scope steps 0 peeked reaches.sound isLevel
        (isAhead ▸ enough)).mono (Nat.zero_le 1)
      rw [isAhead, areNext] at first
      rw [Grammar.map_root_cons]
      refine first.bind fun ty typed reachesTyped _ => ?_
      rcases exists_peeked reachesTyped.sound with ⟨last, runLast, reachesLast, isAheadLast, -⟩
      refine .after runLast reachesLast ?_
      cases areLeft : typed.ahead lexemes with
      | nil =>
          have ended := Follows.pure reachesLast.sound ty
          rw [isAheadLast, areLeft] at ended
          exact ended
      | cons next behind =>
          have failed : Follows lexemes limit 0
              (unexpected lexemes length .endOfInput : CursorReader Ty) last
              (.error (Grammar.unexpected length .endOfInput (last.ahead lexemes))) :=
            unexpected_follows reachesLast.sound length .endOfInput
          rw [isAheadLast, areLeft] at failed
          exact failed

end

end CursorReader

namespace Scope

open CursorReader

/-- The reading with a cursor ends, with what is read from the significant lexemes alone. -/
theorem exists_readLexemes (scope : Scope) (length : Nat) (limit : UInt32) {lexemes : List Lexeme}
    {steps : Nat} (enough : lexemes.length < steps) :
    ∃ final, scope.readLexemes length limit steps lexemes =
        .ok (Grammar.root scope length limit.toNat (lexemes.filter fun lexeme => !lexeme.isTrivia),
          final) ∧
      ({} : Cursor).Reaches lexemes limit final := by
  have fewer : (({} : Cursor).ahead lexemes).length < steps :=
    (List.length_filter_le _ _).trans_lt enough
  rcases (root_follows (.start lexemes limit) rfl fewer).exists_run with ⟨final, run, reaches⟩
  refine ⟨final, run.trans ?_, reaches⟩
  change _ = Except.ok (Grammar.root scope length limit.toNat (({} : Cursor).ahead lexemes), final)
  cases Grammar.root scope length limit.toNat (({} : Cursor).ahead lexemes) with
  | error cause => rfl
  | ok ty => rfl

/--
With more steps than lexemes, reading a text with a cursor gives what is read from its significant
lexemes.
-/
theorem readLexemes_scan (scope : Scope) (limit : UInt32) (text : String) {steps : Nat}
    (enough : (Lexeme.scan text).length < steps) :
    (scope.readLexemes text.utf8ByteSize limit steps (Lexeme.scan text)).map Prod.fst =
      .ok (scope.parse limit.toNat text) := by
  rcases exists_readLexemes scope text.utf8ByteSize limit enough with ⟨final, run, -⟩
  rw [run]
  rfl

/--
With more steps than lexemes the reading is not interrupted, whatever it results in. Its run is
sound, and it ends outside of all nesting levels.
-/
theorem readLexemes_progresses (scope : Scope) (length : Nat) (limit : UInt32)
    (lexemes : List Lexeme) (steps : Nat) (enough : lexemes.length < steps) :
    ∃ final, scope.readLexemes length limit steps lexemes =
        .ok (Grammar.root scope length limit.toNat (lexemes.filter fun lexeme => !lexeme.isTrivia),
          final) ∧
      final.IsSound lexemes limit ∧ final.place.level = 0 := by
  rcases exists_readLexemes scope length limit enough with ⟨final, run, reaches⟩
  exact ⟨final, run, reaches.sound, reaches.level⟩

/-- The calls come back to their levels although the innermost one fails. -/
example :
    (ofGraph.readLexemes 19 4 20 (Lexeme.scan "Node<? extends T[,>")).map (fun run => run.2.calls) =
      .ok [⟨⟨5, 2⟩, ⟨8, 2⟩, false⟩, ⟨⟨2, 1⟩, ⟨8, 1⟩, false⟩, ⟨⟨0, 0⟩, ⟨8, 0⟩, false⟩] := by
  decide +kernel

theorem readLexemes_progresses_node :
    let lexemes := Lexeme.scan "Node<? extends T[,>"
    lexemes.length < 20 ∧
      ∃ final, ofGraph.readLexemes 19 4 20 lexemes =
          .ok (.error (.unexpected 17 (.lexeme .bracketClose) (.lexeme .comma)), final) ∧
        final.IsSound lexemes 4 ∧ final.place.level = 0 := by
  intro lexemes
  have enough : lexemes.length < 20 := by decide +kernel
  have failed : Grammar.root ofGraph 19 4 (lexemes.filter fun lexeme => !lexeme.isTrivia) =
      .error (.unexpected 17 (.lexeme .bracketClose) (.lexeme .comma)) := by decide +kernel
  have progresses := readLexemes_progresses ofGraph 19 4 lexemes 20 enough
  rw [show (4 : UInt32).toNat = 4 from rfl, failed] at progresses
  exact ⟨enough, progresses⟩

end Scope

end NominalTypes
