import NominalTypes.Grammar.Cursor
import NominalTypes.Proofs.Grammar.Repetition

/-!
# Runs of a cursor

A run is sound if the cursor only moved on, stayed within the lexemes and the limit of nesting
levels, and came back from each call to the level where the call had begun. `CursorReader.Follows`
says of a reading that it is not interrupted, keeps the run sound, and has the result that a reader
of the significant lexemes ahead has. The laws here put such readings together.
-/

namespace NominalTypes

/--
The call went on within the lexemes and came back to its level. If it succeeded, it took a lexeme
that is no blank.
-/
structure ReadingCall.IsBalanced (lexemes : List Lexeme) (call : ReadingCall) : Prop where
  goesOn : call.entry.position ≤ call.exit.position
  staysWithin : call.exit.position ≤ lexemes.length
  comesBack : call.exit.level = call.entry.level
  takesLexeme : call.succeeded = true →
    ∃ lexeme ∈ (lexemes.take call.exit.position).drop call.entry.position,
      lexeme.isTrivia = false

namespace Cursor

/-- The places of the run never go back and keep within the lexemes and the limit of levels. -/
structure IsSound (lexemes : List Lexeme) (limit : UInt32) (cursor : Cursor) : Prop where
  ordered : cursor.trail.Pairwise fun earlier later => earlier.position ≤ later.position
  bounded : ∀ place ∈ cursor.trail, place.position ≤ lexemes.length ∧ place.level ≤ limit
  balanced : ∀ call ∈ cursor.calls, call.IsBalanced lexemes

/-- The lexemes that the cursor has not passed, without blanks. -/
def ahead (lexemes : List Lexeme) (self : Cursor) : List Lexeme :=
  (lexemes.drop self.place.position).filter fun lexeme => !lexeme.isTrivia

/-- The run goes on soundly from one cursor to another one on the same level. -/
structure Reaches (lexemes : List Lexeme) (limit : UInt32) (cursor final : Cursor) : Prop where
  sound : final.IsSound lexemes limit
  position : cursor.place.position ≤ final.place.position
  level : final.place.level = cursor.place.level

variable {lexemes : List Lexeme} {limit : UInt32} {cursor middle final : Cursor}

/-- A run that has not begun is sound. -/
theorem IsSound.start (lexemes : List Lexeme) (limit : UInt32) :
    ({} : Cursor).IsSound lexemes limit where
  ordered := List.pairwise_singleton _ _
  bounded := by simp [trail]
  balanced := by simp

theorem IsSound.place_bounded (sound : cursor.IsSound lexemes limit) :
    cursor.place.position ≤ lexemes.length ∧ cursor.place.level ≤ limit :=
  sound.bounded cursor.place (by simp [trail])

/-- A sound run may go on to any place that is not behind the cursor and keeps within the limits. -/
theorem IsSound.moved (sound : cursor.IsSound lexemes limit) (place : Place)
    (goesOn : cursor.place.position ≤ place.position)
    (staysWithin : place.position ≤ lexemes.length) (isBelow : place.level ≤ limit) :
    ({ cursor with place, earlier := cursor.trail } : Cursor).IsSound lexemes limit where
  ordered := by
    have upTo : ∀ before ∈ cursor.trail, before.position ≤ place.position := by
      intro before member
      rcases List.mem_append.1 member with isEarlier | isPlace
      · have ordered := (List.pairwise_append.1 sound.ordered).2.2 before isEarlier cursor.place
          (by simp)
        exact ordered.trans goesOn
      · rw [List.mem_singleton.1 isPlace]
        exact goesOn
    refine List.pairwise_append.2 ⟨sound.ordered, List.pairwise_singleton _ _, ?_⟩
    intro before member last isLast
    rw [List.mem_singleton.1 isLast]
    exact upTo before member
  bounded := by
    intro other member
    rcases List.mem_append.1 member with isEarlier | isPlace
    · exact sound.bounded other isEarlier
    · rw [List.mem_singleton.1 isPlace]
      exact ⟨staysWithin, isBelow⟩
  balanced := sound.balanced

theorem IsSound.called (sound : cursor.IsSound lexemes limit) {call : ReadingCall}
    (balanced : call.IsBalanced lexemes) :
    ({ cursor with calls := cursor.calls ++ [call] } : Cursor).IsSound lexemes limit where
  ordered := sound.ordered
  bounded := sound.bounded
  balanced := by
    intro other member
    rcases List.mem_append.1 member with isEarlier | isCall
    · exact sound.balanced other isEarlier
    · rw [List.mem_singleton.1 isCall]
      exact balanced

theorem Reaches.refl (sound : cursor.IsSound lexemes limit) : cursor.Reaches lexemes limit cursor :=
  ⟨sound, le_rfl, rfl⟩

theorem Reaches.trans (first : cursor.Reaches lexemes limit middle)
    (second : middle.Reaches lexemes limit final) : cursor.Reaches lexemes limit final :=
  ⟨second.sound, first.position.trans second.position, second.level.trans first.level⟩

/-- What lay ahead is what was passed since then, and what lies ahead now. -/
theorem ahead_eq_append (goesOn : cursor.place.position ≤ final.place.position) :
    cursor.ahead lexemes =
      ((lexemes.take final.place.position).drop cursor.place.position).filter
        (fun lexeme => !lexeme.isTrivia) ++ final.ahead lexemes := by
  calc
    cursor.ahead lexemes =
        ((lexemes.drop cursor.place.position).take
            (final.place.position - cursor.place.position) ++
          (lexemes.drop cursor.place.position).drop
            (final.place.position - cursor.place.position)).filter
          fun lexeme => !lexeme.isTrivia := by rw [List.take_append_drop, ahead]
    _ = _ := by
      rw [List.filter_append, List.drop_take, List.drop_drop, Nat.add_sub_cancel' goesOn, ahead]

theorem Reaches.length_ahead_le (reaches : cursor.Reaches lexemes limit final) :
    (final.ahead lexemes).length ≤ (cursor.ahead lexemes).length := by
  rw [ahead_eq_append reaches.position, List.length_append]
  exact Nat.le_add_left _ _

/-- Where less lies ahead than before, a lexeme that is no blank was passed. -/
theorem exists_passed (goesOn : cursor.place.position ≤ final.place.position)
    (fewer : (final.ahead lexemes).length < (cursor.ahead lexemes).length) :
    ∃ lexeme ∈ (lexemes.take final.place.position).drop cursor.place.position,
      lexeme.isTrivia = false := by
  rw [ahead_eq_append goesOn, List.length_append] at fewer
  rcases List.exists_mem_of_length_pos (Nat.pos_of_lt_add_left fewer) with ⟨lexeme, passed⟩
  rcases List.mem_filter.1 passed with ⟨member, notBlank⟩
  exact ⟨lexeme, member, by simpa using notBlank⟩

end Cursor

namespace CursorReader

variable {result value : Type} {cursor middle final : Cursor}

section

variable {read : CursorReader value} {next : value → CursorReader result}

theorem runAt_bind_of_ok {item : value} (run : read.runAt cursor = .ok (.ok item, middle)) :
    (read >>= next).runAt cursor = (next item).runAt middle := by
  rw [runAt] at run
  rw [runAt, ExceptT.run_bind, StateT.run_bind, run]
  rfl

theorem runAt_bind_of_error {cause : TypeError}
    (run : read.runAt cursor = .ok (.error cause, final)) :
    (read >>= next).runAt cursor = .ok (.error cause, final) := by
  rw [runAt] at run
  rw [runAt, ExceptT.run_bind, StateT.run_bind, run]
  rfl

theorem runAt_outcomeOf {outcome : Except TypeError value}
    (run : read.runAt cursor = .ok (outcome, final)) :
    (outcomeOf read).runAt cursor = .ok (.ok outcome, final) := by
  rw [runAt] at run
  rw [runAt, outcomeOf, ExceptT.run_mk, StateT.run_map, run]
  rfl

end

@[simp]
theorem runAt_pure (item : value) :
    (pure item : CursorReader value).runAt cursor = .ok (.ok item, cursor) := rfl

@[simp]
theorem runAt_throw (cause : TypeError) :
    (throw cause : CursorReader value).runAt cursor = .ok (.error cause, cursor) := rfl

@[simp]
theorem runAt_ofOutcome (outcome : Except TypeError value) :
    (ofOutcome outcome).runAt cursor = .ok (outcome, cursor) := rfl

@[simp]
theorem runAt_get_bind (next : Cursor → CursorReader result) :
    ((get : CursorReader Cursor) >>= next).runAt cursor = (next cursor).runAt cursor := rfl

@[simp]
theorem runAt_moveTo (place : Place) :
    (moveTo place).runAt cursor =
      .ok (.ok (), { cursor with place, earlier := cursor.trail }) := rfl

/--
The reading from the cursor ends soundly on the same level, and agrees with the result of a reader
of the lexemes ahead. Where it succeeds, it takes at least the given number of them.
-/
inductive Follows (lexemes : List Lexeme) (limit : UInt32) (least : Nat)
    (read : CursorReader result) (cursor : Cursor) :
    Except TypeError (result × List Lexeme) → Prop
  | ok {item : result} {final : Cursor} (run : read.runAt cursor = .ok (.ok item, final))
      (reaches : cursor.Reaches lexemes limit final)
      (takes : (final.ahead lexemes).length + least ≤ (cursor.ahead lexemes).length) :
      Follows lexemes limit least read cursor (.ok (item, final.ahead lexemes))
  | error {cause : TypeError} {final : Cursor}
      (run : read.runAt cursor = .ok (.error cause, final))
      (reaches : cursor.Reaches lexemes limit final) :
      Follows lexemes limit least read cursor (.error cause)

section

variable {lexemes : List Lexeme} {limit : UInt32} {least : Nat}
  {read step : CursorReader value} {next : value → CursorReader result}
  {outcome : Except TypeError (value × List Lexeme)}

/-- The reading is not interrupted, and has the outcome of the reader. -/
theorem Follows.exists_run (follows : Follows lexemes limit least read cursor outcome) :
    ∃ final, read.runAt cursor = .ok (outcome.map Prod.fst, final) ∧
      cursor.Reaches lexemes limit final := by
  cases follows with
  | ok run reaches _ => exact ⟨_, run, reaches⟩
  | error run reaches => exact ⟨_, run, reaches⟩

theorem Follows.mono {fewer : Nat} (follows : Follows lexemes limit least read cursor outcome)
    (enough : fewer ≤ least) : Follows lexemes limit fewer read cursor outcome := by
  cases follows with
  | ok run reaches takes => exact .ok run reaches ((Nat.add_le_add_left enough _).trans takes)
  | error run reaches => exact .error run reaches

/-- A step that took some lexemes, followed by a reading that takes what is still missing. -/
theorem Follows.onward {taken more : Nat} {item : value}
    {other : Except TypeError (result × List Lexeme)}
    (run : step.runAt cursor = .ok (.ok item, middle))
    (reaches : cursor.Reaches lexemes limit middle)
    (takes : (middle.ahead lexemes).length + taken ≤ (cursor.ahead lexemes).length)
    (enough : least ≤ taken + more)
    (follows : Follows lexemes limit more (next item) middle other) :
    Follows lexemes limit least (step >>= next) cursor other := by
  cases follows with
  | ok runNext reachesFinal takesMore =>
      exact .ok ((runAt_bind_of_ok run).trans runNext) (reaches.trans reachesFinal) (by omega)
  | error runNext reachesFinal =>
      exact .error ((runAt_bind_of_ok run).trans runNext) (reaches.trans reachesFinal)

theorem Follows.after {item : value} {other : Except TypeError (result × List Lexeme)}
    (run : step.runAt cursor = .ok (.ok item, middle))
    (reaches : cursor.Reaches lexemes limit middle)
    (follows : Follows lexemes limit least (next item) middle other) :
    Follows lexemes limit least (step >>= next) cursor other :=
  have takes : (middle.ahead lexemes).length + 0 ≤ (cursor.ahead lexemes).length :=
    reaches.length_ahead_le
  .onward run reaches takes (Nat.le_add_left _ _) follows

/--
Two readings behind each other agree with their readers behind each other, if the first one takes
enough.
-/
theorem Follows.bind {otherNext : value × List Lexeme → Except TypeError (result × List Lexeme)}
    (first : Follows lexemes limit least step cursor outcome)
    (second : ∀ item middle, cursor.Reaches lexemes limit middle →
      (middle.ahead lexemes).length + least ≤ (cursor.ahead lexemes).length →
      Follows lexemes limit 0 (next item) middle (otherNext (item, middle.ahead lexemes))) :
    Follows lexemes limit least (step >>= next) cursor (outcome >>= otherNext) := by
  cases first with
  | ok run reaches takes =>
      exact .onward run reaches takes (Nat.le_add_right _ _) (second _ _ reaches takes)
  | error run reaches => exact .error (runAt_bind_of_error run) reaches

theorem Follows.pure (sound : cursor.IsSound lexemes limit) (item : value) :
    Follows lexemes limit 0 (pure item) cursor (.ok (item, cursor.ahead lexemes)) :=
  .ok rfl (.refl sound) le_rfl

theorem Follows.throw (sound : cursor.IsSound lexemes limit) (cause : TypeError) :
    Follows lexemes limit least (throw cause : CursorReader value) cursor (.error cause) :=
  .error rfl (.refl sound)

theorem Follows.ofOutcome (sound : cursor.IsSound lexemes limit)
    (outcome : Except TypeError value) :
    Follows lexemes limit 0 (ofOutcome outcome) cursor
      (outcome >>= fun item => .ok (item, cursor.ahead lexemes)) := by
  cases outcome with
  | ok item => exact .pure sound item
  | error cause => exact .throw sound cause

theorem Follows.check (sound : cursor.IsSound lexemes limit)
    {outcome : Except TypeError value}
    {otherNext : value → Except TypeError (result × List Lexeme)}
    (follows : ∀ item, Follows lexemes limit least (next item) cursor (otherNext item)) :
    Follows lexemes limit least (CursorReader.ofOutcome outcome >>= next) cursor
      (outcome >>= otherNext) := by
  cases outcome with
  | ok item => exact follows item
  | error cause => exact .throw sound cause

/-- A reading around another one follows where this one does, if it has the same outcome. -/
theorem Follows.around {around : CursorReader value}
    (follows : Follows lexemes limit least read middle outcome)
    (sameAhead : middle.ahead lexemes = cursor.ahead lexemes)
    (run : ∀ {outcome final}, read.runAt middle = .ok (outcome, final) →
      middle.Reaches lexemes limit final →
      (outcome.isOk = true →
        (final.ahead lexemes).length + least ≤ (middle.ahead lexemes).length) →
      ∃ last, around.runAt cursor = .ok (outcome, last) ∧ cursor.Reaches lexemes limit last ∧
        last.ahead lexemes = final.ahead lexemes) :
    Follows lexemes limit least around cursor outcome := by
  cases follows with
  | ok runInner reaches takes =>
      rcases run runInner reaches fun _ => takes with ⟨last, runAround, reachesLast, isAhead⟩
      rw [← isAhead] at takes ⊢
      rw [sameAhead] at takes
      exact .ok runAround reachesLast takes
  | error runInner reaches =>
      rcases run runInner reaches nofun with ⟨last, runAround, reachesLast, -⟩
      exact .error runAround reachesLast

theorem toNat_levelSucc {level : UInt32} (isBelow : level < limit) :
    (level + 1).toNat = level.toNat + 1 := by
  have isWord : level.toNat + 1 < 2 ^ 32 :=
    Nat.lt_of_le_of_lt (UInt32.lt_iff_toNat_lt.1 isBelow) limit.toNat_lt
  rw [UInt32.toNat_add]
  exact Nat.mod_eq_of_lt isWord

/-- Below the limit a level can be entered, and the counter stays a word. -/
theorem exists_entered (sound : cursor.IsSound lexemes limit)
    (isBelow : cursor.place.level < limit) :
    ∃ entered : Cursor, (enter limit).runAt cursor = .ok (.ok (), entered) ∧
      entered.IsSound lexemes limit ∧
      entered.place = { cursor.place with level := cursor.place.level + 1 } := by
  have isWord : cursor.place.level.toNat + 1 ≠ UInt32.size := by
    rw [← toNat_levelSucc isBelow]
    exact Nat.ne_of_lt (cursor.place.level + 1).toNat_lt
  have withinLimit : cursor.place.level + 1 ≤ limit := by
    rw [UInt32.le_iff_toNat_le, toNat_levelSucc isBelow]
    exact UInt32.lt_iff_toNat_lt.1 isBelow
  refine ⟨_, ?_, sound.moved { cursor.place with level := cursor.place.level + 1 } le_rfl
    sound.place_bounded.1 withinLimit, rfl⟩
  rw [enter, runAt_get_bind, if_neg (UInt32.not_le.2 isBelow), if_neg isWord]
  exact runAt_moveTo _

/-- A level that was entered from another one can be left for it. -/
theorem exists_left (sound : cursor.IsSound lexemes limit) {level : UInt32}
    (isBelow : level < limit) (isNested : cursor.place.level = level + 1) :
    ∃ left : Cursor, leave.runAt cursor = .ok (.ok (), left) ∧ left.IsSound lexemes limit ∧
      left.place = { cursor.place with level } := by
  have notZero : cursor.place.level ≠ 0 := by
    intro isZero
    have isSucc := toNat_levelSucc isBelow
    rw [← isNested, isZero] at isSucc
    exact Nat.succ_ne_zero _ isSucc.symm
  have back : cursor.place.level - 1 = level := by rw [isNested, UInt32.add_sub_cancel]
  refine ⟨_, ?_, sound.moved { cursor.place with level } le_rfl sound.place_bounded.1
    (UInt32.le_of_lt isBelow), rfl⟩
  rw [leave, runAt_get_bind, if_neg notZero, back]
  exact runAt_moveTo _

/--
A reading on the next level agrees with its reader, and comes back to its own level whether it
succeeds or fails.
-/
theorem Follows.nested (sound : cursor.IsSound lexemes limit)
    (isBelow : cursor.place.level < limit)
    (follows : ∀ entered : Cursor, entered.IsSound lexemes limit →
      entered.place = { cursor.place with level := cursor.place.level + 1 } →
      Follows lexemes limit least read entered outcome) :
    Follows lexemes limit least (CursorReader.nested limit read) cursor outcome := by
  rcases exists_entered sound isBelow with ⟨entered, runEnter, soundEntered, isEntered⟩
  refine (follows entered soundEntered isEntered).around (by simp [Cursor.ahead, isEntered]) ?_
  intro outcome final run reaches _
  have isNested : final.place.level = cursor.place.level + 1 := by rw [reaches.level, isEntered]
  have goesOn : cursor.place.position ≤ final.place.position := by
    simpa [isEntered] using reaches.position
  rcases exists_left reaches.sound isBelow isNested with ⟨left, runLeave, soundLeft, isLeft⟩
  refine ⟨left, ?_, ⟨soundLeft, by rwa [isLeft], by rw [isLeft]⟩, by simp [Cursor.ahead, isLeft]⟩
  rw [CursorReader.nested, runAt_bind_of_ok runEnter, runAt_bind_of_ok (runAt_outcomeOf run),
    runAt_bind_of_ok runLeave]
  exact runAt_ofOutcome outcome

/-- No reading goes on from the last level to a next one: the limit is exceeded. -/
theorem nested_of_exceeded (sound : cursor.IsSound lexemes limit)
    (isLast : limit ≤ cursor.place.level) :
    Follows lexemes limit least (nested limit read) cursor (.error .recursionLimitExceeded) := by
  have run : (enter limit).runAt cursor = .ok (.error .recursionLimitExceeded, cursor) := by
    rw [enter, runAt_get_bind, if_pos isLast]
    exact runAt_throw _
  exact .error (runAt_bind_of_error run) (.refl sound)

/-- A call that takes a lexeme wherever it succeeds can be kept with the cursor. -/
theorem Follows.recorded (follows : Follows lexemes limit (least + 1) read cursor outcome) :
    Follows lexemes limit (least + 1) (recorded read) cursor outcome := by
  refine follows.around rfl ?_
  intro outcome final run reaches takes
  have isBalanced : ReadingCall.IsBalanced lexemes ⟨cursor.place, final.place, outcome.isOk⟩ :=
    { goesOn := reaches.position
      staysWithin := reaches.sound.place_bounded.1
      comesBack := reaches.level
      takesLexeme := fun succeeded => Cursor.exists_passed reaches.position
        (Nat.lt_of_lt_of_le (Nat.lt_add_of_pos_right (Nat.succ_pos least)) (takes succeeded)) }
  refine ⟨{ final with calls := final.calls ++ [⟨cursor.place, final.place, outcome.isOk⟩] }, ?_,
    ⟨reaches.sound.called isBalanced, reaches.position, reaches.level⟩, rfl⟩
  rw [CursorReader.recorded, runAt_get_bind, runAt_bind_of_ok (runAt_outcomeOf run)]
  rfl

end

end CursorReader

end NominalTypes
