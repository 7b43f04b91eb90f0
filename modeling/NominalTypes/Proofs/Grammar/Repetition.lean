import NominalTypes.Proofs.Grammar.Soundness

/-!
# Repeated pairs of lexemes

The further segments of a name and the array suffixes of a type are read in the same way: a lexeme
of one kind, behind which one of another kind is expected, and so on until the first kind is missing.
`Grammar.RepeatsPairs` says this of a reader, so that a law of such readers is proved once, by
induction on the pairs.
-/

namespace NominalTypes

namespace Grammar

/-- The reader reads pairs of an opening and a closing lexeme, and combines the latter's texts. -/
structure RepeatsPairs {result : Type} (length : Nat) (opening closing : LexemeKind)
    (combine : String → result → result) (nothing : result) (read : LexemeReader result) :
    Prop where
  stop : ∀ lexemes, startsWith opening lexemes = false → read lexemes = .ok (nothing, lexemes)
  go : ∀ lexeme rest, lexeme.kind = opening →
    read (lexeme :: rest) = (do
      let (text, behind) ← expect length closing rest
      let (value, remaining) ← read behind
      .ok (combine text value, remaining))

theorem startsWith_eq_true_iff {kind : LexemeKind} {lexemes : List Lexeme} :
    startsWith kind lexemes = true ↔
      ∃ lexeme rest, lexemes = lexeme :: rest ∧ lexeme.kind = kind := by
  cases lexemes <;> simp [startsWith]

/-- Lexemes start with a pair or they do not, and what follows a pair is shorter. -/
theorem pairs_induction (length : Nat) (opening closing : LexemeKind)
    {motive : List Lexeme → Prop}
    (stop : ∀ lexemes, startsWith opening lexemes = false → motive lexemes)
    (go : ∀ lexeme rest, lexeme.kind = opening →
      (∀ text behind, expect length closing rest = .ok (text, behind) → motive behind) →
      motive (lexeme :: rest))
    (lexemes : List Lexeme) : motive lexemes := by
  induction isSize : lexemes.length using Nat.strongRecOn generalizing lexemes with
  | ind size ih =>
      cases starts : startsWith opening lexemes with
      | false => exact stop lexemes starts
      | true =>
          rcases startsWith_eq_true_iff.1 starts with ⟨lexeme, rest, rfl, isOpening⟩
          refine go lexeme rest isOpening fun text behind isClosing => ?_
          rcases expect_eq_ok_iff.1 isClosing with ⟨_, rfl, -⟩
          have shorter : behind.length < size := by
            simp only [List.length_cons] at isSize
            omega
          exact ih behind.length shorter behind rfl

/-- Behind the last pair no further one starts. -/
theorem RepeatsPairs.stops {value : Type} {length : Nat} {opening closing : LexemeKind}
    {combine : String → value → value} {nothing : value} {read : LexemeReader value}
    (pairs : RepeatsPairs length opening closing combine nothing read)
    {lexemes remaining : List Lexeme} {item : value}
    (isRead : read lexemes = .ok (item, remaining)) : startsWith opening remaining = false := by
  induction lexemes using pairs_induction length opening closing generalizing item with
  | stop lexemes starts =>
      rw [pairs.stop lexemes starts] at isRead
      cases isRead
      exact starts
  | go lexeme rest isOpening ih =>
      rw [pairs.go lexeme rest isOpening] at isRead
      rcases bind_eq_ok.1 isRead with ⟨⟨text, behind⟩, isClosing, isRead⟩
      rcases bind_eq_ok.1 isRead with ⟨⟨inner, last⟩, isInner, isResult⟩
      cases isResult
      exact ih text behind isClosing isInner

/-- The further segments of a name are pairs of a dot and an identifier. -/
theorem furtherSegments_repeatsPairs (length : Nat) :
    RepeatsPairs length .dot .identifier List.cons [] (furtherSegments length) where
  stop := by
    intro lexemes stops
    cases lexemes with
    | nil => rw [furtherSegments]
    | cons lexeme rest =>
        have notDot : ¬lexeme.kind = .dot := by simpa [startsWith] using stops
        unfold furtherSegments
        simp [notDot]
  go := by
    intro lexeme rest isDot
    cases rest with
    | nil => simp [furtherSegments, isDot, expect, bind, Except.bind]
    | cons segment behind =>
        by_cases isIdentifier : segment.kind = .identifier
        · simp [furtherSegments, isDot, expect, isIdentifier, bind, Except.bind]
        · simp [furtherSegments, isDot, expect, isIdentifier, bind, Except.bind]

/-- Array suffixes are pairs of brackets. -/
theorem arraySuffixes_repeatsPairs (length : Nat) :
    RepeatsPairs length .bracketOpen .bracketClose (fun _ dims => dims + 1) 0
      (arraySuffixes length) where
  stop := by
    intro lexemes stops
    cases lexemes with
    | nil => rw [arraySuffixes]
    | cons lexeme rest =>
        have notOpen : ¬lexeme.kind = .bracketOpen := by simpa [startsWith] using stops
        unfold arraySuffixes
        simp [notOpen]
  go := by
    intro lexeme rest isOpen
    cases rest with
    | nil => simp [arraySuffixes, isOpen, expect, bind, Except.bind]
    | cons closing behind =>
        by_cases isClose : closing.kind = .bracketClose
        · simp [arraySuffixes, isOpen, expect, isClose, bind, Except.bind]
        · simp [arraySuffixes, isOpen, expect, isClose, bind, Except.bind]

end Grammar

end NominalTypes
