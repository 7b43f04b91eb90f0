import NominalTypes.Proofs.Grammar.Completeness
import NominalTypes.Proofs.Grammar.Lookahead
import NominalTypes.Proofs.Grammar.RoundTrip
import NominalTypes.Proofs.Grammar.Tokenization

/-!
# Where text stops being a type

Each reader of the grammar decides the language of its production, given what can follow it there:
behind a type that is a comma or a closing angle bracket, behind a bound also an ampersand or
`super`. Causes other than the grammar, such as unknown names or too deep nesting, end the reading
without a word about it. So `Scope.parse_unexpected` can say of the offset in an error where the
lexemes of a text leave the grammar.
-/

namespace NominalTypes

namespace Grammar

open Lexeme

open scoped Computability

variable {length : Nat} {continuation : Language LexemeKind} {lexemes : List Lexeme}

section

variable {kinds : List LexemeKind}

theorem qualifiedName_decides (follows : FollowedBy kinds continuation) (stops : .dot ∉ kinds)
    (lexemes : List Lexeme) :
    Decides length nameLanguage continuation lexemes (qualifiedName length lexemes) := by
  refine (expect_decides .identifier).bind ⟨[], Language.nil_mem_kstar _⟩ ?_
  intro first rest _
  exact ((furtherSegments_repeatsPairs length).decides follows stops rest).map (List.cons first)

theorem arraySuffixes_decides (follows : FollowedBy kinds continuation)
    (stops : .bracketOpen ∉ kinds) (lexemes : List Lexeme) :
    Decides length suffixLanguage continuation lexemes (arraySuffixes length lexemes) :=
  (arraySuffixes_repeatsPairs length).decides follows stops lexemes

end

theorem known_notGrammar {scope : Scope} {name : String} {cause : TypeError}
    (failed : scope.known name = .error cause) : cause.kind ≠ .grammar := by
  simp only [Scope.known] at failed
  split at failed
  · cases failed
  · cases failed
    simp [TypeError.kind]

/-- That a name is unknown says nothing about the grammar. -/
theorem resolve_notGrammar {scope : Scope} {segments : List String} {cause : TypeError}
    (failed : scope.resolve segments = .error cause) : cause.kind ≠ .grammar := by
  simp only [Scope.resolve] at failed
  split at failed
  · simp only [Scope.resolveSimple] at failed
    split at failed
    · cases failed
    · split at failed
      · cases failed
      · split at failed
        · exact known_notGrammar failed
        · exact known_notGrammar failed
        · cases failed
          simp [TypeError.kind]
  · simp only [Scope.resolveDotted] at failed
    split at failed
    · cases failed
    · cases failed
      simp [TypeError.kind]

/-- That a class takes other arguments says nothing about the grammar. -/
theorem applied_notGrammar {scope : Scope} {arguments : List Ty} {referent : Referent}
    {cause : TypeError} (failed : applied scope arguments referent = .error cause) :
    cause.kind ≠ .grammar := by
  cases referent with
  | ofVariable parameter =>
      cases failed
      simp [TypeError.kind]
  | ofClass raw =>
      simp only [applied, Catalog.parameterize] at failed
      split at failed
      · split at failed
        · cases failed
          simp [TypeError.kind]
        · cases failed
      · cases failed
        simp [TypeError.kind]

section

variable {scope : Scope} {read : LexemeReader Ty}

/-- Behind the arguments the last array dimensions are read, and all dimensions are counted. -/
theorem outerSuffixes_decides (follows : FollowedBy boundFollow continuation) (inner : Nat)
    (ty : Ty) (lexemes : List Lexeme) :
    Decides length suffixLanguage continuation lexemes (do
      let (outer, remaining) ← arraySuffixes length lexemes
      if 255 < inner + outer then .error .tooManyDimensions
      else .ok (Ty.arrayOfTimes (inner + outer) ty, remaining)) := by
  rw [← mul_one suffixLanguage]
  refine (arraySuffixes_decides (one_mul continuation ▸ follows) (by decide) lexemes).bind
    ⟨[], rfl⟩ ?_
  intro outer rest _
  by_cases tooMany : 255 < inner + outer
  · simp only [tooMany, if_true]
    exact .other (by simp [TypeError.kind])
  · simp only [tooMany, if_false]
    exact .nothing _

/--
Where all array dimensions behind a name were read, arguments follow or nothing does: without
arguments, the suffixes on both sides of them were all read in front.
-/
theorem arguments_decides
    (decides : DecidesBefore length typeFollow (written TypeTree.yield) read)
    (follows : FollowedBy boundFollow continuation) (referent : Referent) (inner : Nat)
    (noSuffix : startsWith .bracketOpen lexemes = false) :
    Decides length argumentLanguage continuation lexemes (do
      let (ty, behindArguments) ← application scope length read referent lexemes
      let (outer, remaining) ← arraySuffixes length behindArguments
      if 255 < inner + outer then .error .tooManyDimensions
      else .ok (Ty.arrayOfTimes (inner + outer) ty, remaining)) := by
  cases starts : startsWith .angleOpen lexemes with
  | false =>
      have unapplied : application scope length read referent lexemes =
          .ok (referent.toTy, lexemes) := by
        cases lexemes with
        | nil => rfl
        | cons lexeme rest =>
            have notOpen : ¬lexeme.kind = .angleOpen := by simpa [startsWith] using starts
            simp [application, notOpen]
      rw [unapplied]
      change Decides _ _ _ _ (arraySuffixes length lexemes >>= _)
      rw [(arraySuffixes_repeatsPairs length).stop lexemes noSuffix]
      change Decides _ _ _ _ (if 255 < inner + 0 then _ else _)
      split
      · exact .other (by simp [TypeError.kind])
      · exact .skip _ starts
  | true =>
      rcases startsWith_eq_true_iff.1 starts with ⟨lexeme, rest, rfl, isOpen⟩
      have followsList : FollowedBy [.angleClose]
          (only .angleClose * suffixLanguage * continuation) := by
        rw [mul_assoc]
        exact followedBy_only (by simp)
      simp only [application, isOpen, if_true, bind_assoc]
      refine .take follows (by decide) isOpen ?_
      refine (separated_decides decides (by decide) (by decide) (by decide) le_rfl
        followsList).bind ⟨[.angleClose], ?_⟩ ?_
      · exact cons_mem_only_mul_iff.2 ⟨rfl, Language.nil_mem_kstar _⟩
      intro arguments behind _
      refine (expect_decides .angleClose).bind ⟨[], Language.nil_mem_kstar _⟩ ?_
      intro _ behindArguments _
      refine .check (fun _ => applied_notGrammar) fun ty => ?_
      exact outerSuffixes_decides follows inner ty behindArguments

/-- The reader of named types decides their language if the reader of the types in them does. -/
theorem namedType_decides (scope : Scope)
    (decides : DecidesBefore length typeFollow (written TypeTree.yield) read) :
    DecidesBefore length boundFollow (written NamedTree.yield) (namedType scope length read) := by
  intro continuation follows lexemes
  rw [written_namedTree]
  have followsSuffixes : FollowedBy (.angleOpen :: boundFollow)
      (argumentLanguage * continuation) :=
    (follows.mono fun _ => List.mem_cons_of_mem _).optional List.mem_cons_self
  have followsName : FollowedBy (.bracketOpen :: .angleOpen :: boundFollow)
      (suffixLanguage * argumentLanguage * continuation) := by
    rw [mul_assoc]
    exact (followsSuffixes.mono fun _ => List.mem_cons_of_mem _).repeated List.mem_cons_self
  refine (qualifiedName_decides followsName (by decide) lexemes).bind ?_ ?_
  · exact ⟨[] ++ [], Language.append_mem_mul (Language.nil_mem_kstar _) (.inl rfl)⟩
  intro segments behindName _
  refine (arraySuffixes_decides followsSuffixes (by decide) behindName).bind ⟨[], .inl rfl⟩ ?_
  intro inner behindSuffixes areSuffixes
  refine .check (fun _ => resolve_notGrammar) fun referent => ?_
  exact arguments_decides decides follows referent inner
    ((arraySuffixes_repeatsPairs length).stops areSuffixes)

theorem boundsBehind_decides
    (decides : DecidesBefore length boundFollow (written NamedTree.yield) (bound read))
    {others : List LexemeKind} (within : ∀ kind ∈ others, kind ∈ boundFollow)
    (noAmpersand : .ampersand ∉ others) {keyword : LexemeKind} (stops : keyword ∉ others)
    (follows : FollowedBy others continuation) (lexemes : List Lexeme) :
    Decides length (boundLanguage keyword) continuation lexemes
      (boundsBehind keyword read lexemes) := by
  cases lexemes with
  | nil => exact .skip [] rfl
  | cons lexeme rest =>
      by_cases isKeyword : lexeme.kind = keyword
      · simp only [boundsBehind, isKeyword, if_true]
        exact .take follows stops isKeyword
          (separated_decides decides (by decide) within noAmpersand le_rfl follows)
      · simp only [boundsBehind, isKeyword, if_false]
        exact .skip [] (by simpa [startsWith] using isKeyword)

theorem wildcardBounds_decides
    (decides : DecidesBefore length boundFollow (written NamedTree.yield) (bound read)) :
    DecidesBefore length typeFollow (boundLanguage .extendsWord * boundLanguage .superWord)
      (wildcardBounds read) := by
  intro continuation follows lexemes
  have followsUpper : FollowedBy (.superWord :: typeFollow)
      (boundLanguage .superWord * continuation) :=
    (follows.mono fun _ => List.mem_cons_of_mem _).optional List.mem_cons_self
  refine (boundsBehind_decides decides (by decide) (by decide) (by decide) followsUpper
    lexemes).bind ⟨[], .inl rfl⟩ ?_
  intro upper rest _
  exact (boundsBehind_decides decides (by decide) (by decide) (by decide) follows rest).map
    (Ty.wildcardOf upper)

end

/--
A bound is decided if types are on all deeper nesting levels. A wildcard in its place is no failure
of the grammar.
-/
theorem bound_decides {scope : Scope} {levels : Nat}
    (decides : ∀ inner < levels,
      DecidesBefore length typeFollow (written TypeTree.yield) (type scope length inner)) :
    DecidesBefore length boundFollow (written NamedTree.yield)
      (bound (type scope length levels)) := by
  intro continuation follows lexemes
  cases starts : startsWith .question lexemes with
  | true =>
      simp only [bound, starts, if_true]
      exact .other (by simp [TypeError.kind])
  | false =>
      simp only [bound, starts, Bool.false_eq_true, if_false]
      cases levels with
      | zero => exact .other (by simp [TypeError.kind])
      | succ inner =>
          rw [type_succ_eq_namedType starts]
          exact namedType_decides scope (decides inner (Nat.lt_succ_self inner)) continuation
            follows lexemes

/-- No named type begins with another lexeme than an identifier. -/
theorem not_beginsLike_of_named {lexeme : Lexeme} (notIdentifier : lexeme.kind ≠ .identifier)
    (rest : List Lexeme) :
    ∀ word ∈ written NamedTree.yield * continuation, ¬BeginsLike word (lexeme :: rest) := by
  rw [written_namedTree, nameLanguage, mul_assoc, mul_assoc]
  exact not_beginsLike_of_only (by simpa [startsWith] using notIdentifier)

/--
On every number of nesting levels a type is read up to where the lexemes leave the grammar. A bound
is read as a named type, so that its arguments lie two levels below the wildcard.
-/
theorem type_decides (scope : Scope) (length levels : Nat) :
    DecidesBefore length typeFollow (written TypeTree.yield) (type scope length levels) := by
  induction levels using Nat.strongRecOn with
  | ind levels ih =>
      intro continuation follows lexemes
      rw [written_typeTree]
      cases levels with
      | zero => exact .other (by simp [TypeError.kind])
      | succ levels =>
          cases starts : startsWith .question lexemes with
          | false =>
              rw [type_succ_eq_namedType starts]
              have named := namedType_decides scope (ih levels (Nat.lt_succ_self levels))
                continuation (follows.mono (by decide)) lexemes
              refine named.alternative ?_
              rw [mul_assoc]
              exact not_beginsLike_of_only starts
          | true =>
              rcases startsWith_eq_true_iff.1 starts with ⟨lexeme, rest, rfl, isQuestion⟩
              rw [type_succ_eq_wildcardBounds isQuestion, add_comm]
              have bounds := wildcardBounds_decides (bound_decides fun inner deeper =>
                ih inner (Nat.lt_succ_of_lt deeper)) continuation follows rest
              refine (bounds.after (completes_only isQuestion)).alternative ?_
              exact not_beginsLike_of_named (by simp [isQuestion]) rest

/-- Where something unexpected is found, the lexemes leave the language of types. -/
theorem root_breaksOff {scope : Scope} {depth offset : Nat} {expected : Expectation}
    {found : Finding}
    (failed : root scope length depth lexemes = .error (.unexpected offset expected found)) :
    ∃ taken remaining, lexemes = taken ++ remaining ∧ offset = Grammar.offset length remaining ∧
      BreaksOff (written TypeTree.yield) 1 taken remaining := by
  cases lexemes with
  | nil =>
      cases failed
      refine ⟨[], [], rfl, rfl, ⟨_, .named ⟨"", [], 0, [], 0⟩, rfl⟩, ?_⟩
      intro rest like member
      rw [List.head?_eq_none_iff.1 like, mul_one] at member
      rcases member with ⟨tree, isEmpty⟩
      exact tree.yield_ne_nil (List.map_eq_nil_iff.1 isEmpty)
  | cons first rest =>
      have decides := type_decides scope length depth 1 followedBy_one (first :: rest)
      simp only [root] at failed
      generalize type scope length depth (first :: rest) = step at decides failed
      cases decides with
      | @ok ty taken remaining areLexemes completes =>
          cases remaining with
          | nil => cases failed
          | cons next behind =>
              cases failed
              refine ⟨taken, next :: behind, areLexemes, rfl, ⟨[], ?_⟩, ?_⟩
              · simpa using completes.isWord
              · intro rest like member
                cases completes.ends rest like member
                cases like
      | unexpected expected areLexemes breaksOff =>
          cases failed
          exact ⟨_, _, areLexemes, rfl, breaksOff⟩
      | other notGrammar =>
          cases failed
          exact absurd rfl notGrammar

/-- A part of the significant lexemes lies in front of the offset of those that follow. -/
theorem stop_le_offset {text : String} {before behind : List Lexeme}
    (areSignificant : significant text = before ++ behind) :
    ∀ lexeme ∈ before, lexeme.stop ≤ offset text.utf8ByteSize behind := by
  have adjacent := areAdjacent_scanFrom 0 text.toList
  have ordered := adjacent.pairwise.filter fun lexeme => !lexeme.isTrivia
  intro lexeme member
  cases behind with
  | nil =>
      have isLexeme : lexeme ∈ significant text := areSignificant ▸ List.mem_append_left _ member
      have stops := (adjacent.within lexeme (List.mem_of_mem_filter isLexeme)).2
      simpa [offset] using stops
  | cons next rest =>
      change (significant text).Pairwise _ at ordered
      rw [areSignificant, List.pairwise_append] at ordered
      exact ordered.2.2 lexeme member next List.mem_cons_self

end Grammar

namespace Scope

/--
Where the grammar is the cause of a failure, the lexemes in front of its offset begin a sentence.
With the lexeme at the offset they do not, or nothing is left and they are no sentence.
-/
theorem parse_unexpected {scope : Scope} {depth : Nat} {text : String} {offset : Nat}
    {expected : Expectation} {found : Finding}
    (failed : scope.parse depth text = .error (.unexpected offset expected found)) :
    ∃ before behind, Lexeme.significant text = before ++ behind ∧
      (∀ lexeme ∈ before, lexeme.stop ≤ offset) ∧ IsSentenceStart (before.map Lexeme.kind) ∧
      ((behind = [] ∧ offset = text.utf8ByteSize ∧ ¬IsSentence (before.map Lexeme.kind)) ∨
        ∃ next rest, behind = next :: rest ∧ offset = next.start ∧
          ¬IsSentenceStart (before.map Lexeme.kind ++ [next.kind])) := by
  rcases Grammar.root_breaksOff failed with ⟨before, behind, areLexemes, isOffset, isStart, stuck⟩
  rw [mul_one] at stuck
  refine ⟨before, behind, areLexemes, ?_, isStart, ?_⟩
  · exact isOffset ▸ Grammar.stop_le_offset areLexemes
  · cases behind with
    | nil =>
        refine .inl ⟨rfl, isOffset, fun isSentence => stuck [] rfl ?_⟩
        rw [List.append_nil]
        exact isSentence
    | cons next rest =>
        refine .inr ⟨next, rest, rfl, isOffset, ?_⟩
        rintro ⟨more, isSentence⟩
        rw [List.append_assoc] at isSentence
        exact stuck (next.kind :: more) rfl isSentence

/-- A bound goes on with a bracket, but what follows is no closing bracket. -/
theorem parse_unexpected_node :
    ofGraph.parse 4 "Node<? extends T[,>" =
        .error (.unexpected 17 (.lexeme .bracketClose) (.lexeme .comma)) ∧
      ∃ before next rest, Lexeme.significant "Node<? extends T[,>" = before ++ next :: rest ∧
        next.start = 17 ∧ IsSentenceStart (before.map Lexeme.kind) ∧
        ¬IsSentenceStart (before.map Lexeme.kind ++ [next.kind]) := by
  have failed : ofGraph.parse 4 "Node<? extends T[,>" =
      .error (.unexpected 17 (.lexeme .bracketClose) (.lexeme .comma)) := by decide +kernel
  rcases parse_unexpected failed with ⟨before, behind, areLexemes, -, isStart, isEnd | isNext⟩
  · exact absurd isEnd.2.1 (by decide +kernel)
  · rcases isNext with ⟨next, rest, rfl, isOffset, notStart⟩
    exact ⟨failed, before, next, rest, areLexemes, isOffset.symm, isStart, notStart⟩

end Scope

end NominalTypes
