import NominalTypes.Grammar.Parser
import NominalTypes.Proofs.Sequencing

/-!
# What the reading of type text depends on

A scope is asked for two things while text is read: what a name stands for, and what this becomes when
it is applied to type arguments. Scopes with the same answers read everything in the same way, and a
scope that gives at least the answers of another one reads whatever that one reads.
-/

namespace NominalTypes

namespace Grammar

/-- What the first reader reads, the second one reads as well. -/
def IsWithin {result : Type} (read other : LexemeReader result) : Prop :=
  ∀ lexemes value, read lexemes = .ok value → other lexemes = .ok value

section

variable {read other : LexemeReader Ty} (within : IsWithin read other)

theorem isWithin_separated {item : Type} {read other : LexemeReader item}
    (within : IsWithin read other) (separator : LexemeKind) (count : Nat) :
    IsWithin (separated separator read count) (separated separator other count) := by
  induction count with
  | zero =>
      intro lexemes value isRead
      exact bind_eq_ok_mono isRead (within lexemes) fun _ => id
  | succ count ih =>
      intro lexemes value isRead
      refine bind_eq_ok_mono isRead (within lexemes) ?_
      rintro ⟨first, rest⟩ isRest
      cases rest with
      | nil => exact isRest
      | cons lexeme behind =>
          simp only at isRest ⊢
          split at isRest
          · next isSeparator =>
            rw [if_pos isSeparator]
            exact bind_eq_ok_mono isRest (ih behind) fun _ => id
          · next isOther => rwa [if_neg isOther]

include within

theorem isWithin_bound : IsWithin (bound read) (bound other) := by
  intro lexemes value isRead
  simp only [bound] at isRead ⊢
  split at isRead
  · cases isRead
  · next isNoWildcard =>
    rw [if_neg isNoWildcard]
    exact within lexemes value isRead

theorem isWithin_boundsBehind (keyword : LexemeKind) :
    IsWithin (boundsBehind keyword read) (boundsBehind keyword other) := by
  intro lexemes value isRead
  cases lexemes with
  | nil => exact isRead
  | cons lexeme rest =>
      simp only [boundsBehind] at isRead ⊢
      split at isRead
      · next isKeyword =>
        rw [if_pos isKeyword]
        exact isWithin_separated (isWithin_bound within) .ampersand rest.length rest value isRead
      · next isOther => rwa [if_neg isOther]

theorem isWithin_wildcardBounds : IsWithin (wildcardBounds read) (wildcardBounds other) := by
  intro lexemes value isRead
  refine bind_eq_ok_mono isRead (isWithin_boundsBehind within .extendsWord lexemes) ?_
  rintro ⟨upper, rest⟩ isRest
  exact bind_eq_ok_mono isRest (isWithin_boundsBehind within .superWord rest) fun _ => id

end

/-- The second scope knows whatever names the first one knows, and applies them in the same way. -/
structure Answers (scope other : Scope) : Prop where
  resolve : ∀ segments referent,
    scope.resolve segments = .ok referent → other.resolve segments = .ok referent
  applied : ∀ arguments referent,
    applied scope arguments referent = applied other arguments referent

section

variable {scope other : Scope} (answers : Answers scope other) (length : Nat)

include answers

/-- A class is applied to arguments in the second scope as in the first one. -/
theorem isWithin_application {read otherRead : LexemeReader Ty} (within : IsWithin read otherRead)
    (referent : Referent) :
    IsWithin (application scope length read referent)
      (application other length otherRead referent) := by
  intro lexemes value isRead
  cases lexemes with
  | nil => exact isRead
  | cons lexeme rest =>
      simp only [application] at isRead ⊢
      split at isRead
      · next isOpen =>
        rw [if_pos isOpen]
        refine bind_eq_ok_mono isRead (isWithin_separated within .comma rest.length rest) ?_
        rintro ⟨arguments, behind⟩ isBehind
        simp only [answers.applied] at isBehind
        exact isBehind
      · next isOther => rwa [if_neg isOther]

/-- Named types of the first scope are read in the second one, if the types in them are. -/
theorem isWithin_namedType {read otherRead : LexemeReader Ty} (within : IsWithin read otherRead) :
    IsWithin (namedType scope length read) (namedType other length otherRead) := by
  intro lexemes value isRead
  refine bind_eq_ok_mono isRead (fun _ => id) ?_
  rintro ⟨segments, behindName⟩ isRead
  refine bind_eq_ok_mono isRead (fun _ => id) ?_
  rintro ⟨innerDims, behindSuffixes⟩ isRead
  refine bind_eq_ok_mono isRead (answers.resolve segments) ?_
  intro referent isRead
  exact bind_eq_ok_mono isRead (isWithin_application answers length within referent behindSuffixes)
    fun _ => id

/-- Types of the first scope are read in the second one on every number of nesting levels. -/
theorem isWithin_type (depth : Nat) :
    IsWithin (type scope length depth) (type other length depth) := by
  induction depth with
  | zero => exact fun _ _ => id
  | succ depth ih =>
      intro lexemes value isRead
      cases lexemes with
      | nil => exact isWithin_namedType answers length ih [] value isRead
      | cons lexeme rest =>
          simp only [type] at isRead ⊢
          split at isRead
          · next isWildcard =>
            rw [if_pos isWildcard]
            exact isWithin_wildcardBounds ih rest value isRead
          · next isOther =>
            rw [if_neg isOther]
            exact isWithin_namedType answers length ih (lexeme :: rest) value isRead

end

end Grammar

namespace Scope

variable {scope other : Scope}

/-- A scope that gives the answers of another one reads the texts that this one reads. -/
theorem parse_of_answers (answers : Grammar.Answers scope other) {depth : Nat} {text : String}
    {ty : Ty} (read : scope.parse depth text = .ok ty) : other.parse depth text = .ok ty := by
  simp only [parse] at read ⊢
  cases lexemes : Lexeme.significant text with
  | nil =>
      rw [lexemes] at read
      cases read
  | cons lexeme rest =>
      rw [lexemes] at read
      exact bind_eq_ok_mono read (Grammar.isWithin_type answers _ depth _) fun _ => id

/-- Scopes with the same answers read each text in the same way, or refuse it for the same cause. -/
theorem parse_congr (sameResolve : ∀ segments, scope.resolve segments = other.resolve segments)
    (sameApplied : ∀ arguments referent,
      Grammar.applied scope arguments referent = Grammar.applied other arguments referent)
    (depth : Nat) (text : String) : scope.parse depth text = other.parse depth text := by
  have sameNamed : ∀ length read, Grammar.namedType scope length read =
      Grammar.namedType other length read := by
    intro length read
    funext lexemes
    have sameApplication : ∀ referent, Grammar.application scope length read referent =
        Grammar.application other length read referent := by
      intro referent
      funext lexemes
      cases lexemes with
      | nil => rfl
      | cons lexeme rest => simp only [Grammar.application, sameApplied]
    simp only [Grammar.namedType, sameResolve, sameApplication]
  have sameType : ∀ length, Grammar.type scope length depth = Grammar.type other length depth := by
    intro length
    induction depth with
    | zero => rfl
    | succ depth ih =>
        funext lexemes
        cases lexemes with
        | nil => simp only [Grammar.type, sameNamed, ih]
        | cons lexeme rest => simp only [Grammar.type, sameNamed, ih]
  simp only [parse]
  cases Lexeme.significant text with
  | nil => rfl
  | cons lexeme rest => simp only [Grammar.root, sameType]

end Scope

end NominalTypes
