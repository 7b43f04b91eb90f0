import NominalTypes.Proofs.Grammar.Languages
import NominalTypes.Proofs.Grammar.Repetition

/-!
# Reading with one lexeme of lookahead

A reader looks one lexeme ahead and never goes back. It decides a language if that is enough: what
it takes is a word of the language and, seen from the next lexeme, the only one. Where it finds
something unexpected, what it took still begins a word, but no word goes on with the next lexeme.
`Grammar.Decides` says this of one result, relative to the words that can follow behind the part
that is read. The laws here put such results together in the way in which languages are.
-/

namespace NominalTypes

namespace Grammar

open Lexeme

open scoped Computability

/-- The word begins with the kind of the first lexeme; it is empty where there is none. -/
def BeginsLike (word : List LexemeKind) (lexemes : List Lexeme) : Prop :=
  word.head? = (lexemes.map kind).head?

/-- A word was taken, and nothing that begins like the remaining lexemes makes it a longer one. -/
structure Completes (language continuation : Language LexemeKind)
    (taken remaining : List Lexeme) : Prop where
  isWord : taken.map kind ∈ language
  ends : ∀ rest, BeginsLike rest remaining →
    taken.map kind ++ rest ∈ language * continuation → rest ∈ continuation

/-- The start of a word was taken, but none goes on like the remaining lexemes. -/
structure BreaksOff (language continuation : Language LexemeKind)
    (taken remaining : List Lexeme) : Prop where
  isStart : ∃ rest, taken.map kind ++ rest ∈ language
  stuck : ∀ rest, BeginsLike rest remaining → taken.map kind ++ rest ∉ language * continuation

/--
The result is right about where the lexemes leave the language, if they do, given what can follow
its words. Failures for other causes than the grammar say nothing about it.
-/
inductive Decides {result : Type} (length : Nat) (language continuation : Language LexemeKind)
    (lexemes : List Lexeme) : Except TypeError (result × List Lexeme) → Prop where
  | ok (value : result) {taken remaining : List Lexeme} (areLexemes : lexemes = taken ++ remaining)
      (completes : Completes language continuation taken remaining) :
      Decides length language continuation lexemes (.ok (value, remaining))
  | unexpected (expected : Expectation) {taken remaining : List Lexeme}
      (areLexemes : lexemes = taken ++ remaining)
      (breaksOff : BreaksOff language continuation taken remaining) :
      Decides length language continuation lexemes (.error (unexpected length expected remaining))
  | other {cause : TypeError} (notGrammar : cause.kind ≠ .grammar) :
      Decides length language continuation lexemes (.error cause)

variable {result value : Type} {length : Nat}
  {front back language continuation : Language LexemeKind}
  {lexemes taken behind remaining : List Lexeme}

theorem BeginsLike.append {rest : List LexemeKind} (like : BeginsLike rest remaining)
    (behind : List Lexeme) : BeginsLike (behind.map kind ++ rest) (behind ++ remaining) := by
  cases behind with
  | nil => exact like
  | cons lexeme behind => rfl

theorem not_beginsLike_of_only {kind : LexemeKind} (starts : startsWith kind lexemes = false) :
    ∀ word ∈ only kind * language, ¬BeginsLike word lexemes := by
  intro word member like
  rcases mem_only_mul_iff.1 member with ⟨rest, -, rfl⟩
  cases lexemes with
  | nil => cases like
  | cons lexeme lexemes =>
      have isKind : kind = lexeme.kind := Option.some.inj like
      simp [startsWith, isKind] at starts

/--
A word of the first language and one of the second, taken behind each other, are a word of both.
-/
theorem Completes.append (first : Completes front (back * continuation) taken (behind ++ remaining))
    (second : Completes back continuation behind remaining) :
    Completes (front * back) continuation (taken ++ behind) remaining where
  isWord := by
    rw [List.map_append]
    exact Language.append_mem_mul first.isWord second.isWord
  ends := by
    intro rest like member
    rw [List.map_append, List.append_assoc, mul_assoc] at member
    exact second.ends rest like (first.ends _ (like.append behind) member)

/-- Where the second language breaks off behind a word of the first one, both break off. -/
theorem Completes.breaksOff
    (first : Completes front (back * continuation) taken (behind ++ remaining))
    (second : BreaksOff back continuation behind remaining) :
    BreaksOff (front * back) continuation (taken ++ behind) remaining where
  isStart := by
    rcases second.isStart with ⟨rest, isWord⟩
    refine ⟨rest, ?_⟩
    rw [List.map_append, List.append_assoc]
    exact Language.append_mem_mul first.isWord isWord
  stuck := by
    intro rest like member
    rw [List.map_append, List.append_assoc, mul_assoc] at member
    exact second.stuck rest like (first.ends _ (like.append behind) member)

/-- What is decided behind a word is decided from its start. -/
theorem Decides.after {outcome : Except TypeError (result × List Lexeme)}
    (first : Completes front (back * continuation) taken remaining)
    (second : Decides length back continuation remaining outcome) :
    Decides length (front * back) continuation (taken ++ remaining) outcome := by
  cases second with
  | ok value areLexemes completes =>
      subst areLexemes
      exact .ok value (List.append_assoc ..).symm (first.append completes)
  | unexpected expected areLexemes breaksOff =>
      subst areLexemes
      exact .unexpected expected (List.append_assoc ..).symm (first.breaksOff breaksOff)
  | other notGrammar => exact .other notGrammar

/--
Two results behind each other decide two languages behind each other, if the second one has words at
all.
-/
theorem Decides.bind {step : Except TypeError (value × List Lexeme)}
    {next : value × List Lexeme → Except TypeError (result × List Lexeme)}
    (first : Decides length front (back * continuation) lexemes step)
    (inhabited : ∃ word, word ∈ back)
    (second : ∀ value rest, step = .ok (value, rest) →
      Decides length back continuation rest (next (value, rest))) :
    Decides length (front * back) continuation lexemes (step >>= next) := by
  cases first with
  | ok value areLexemes completes =>
      subst areLexemes
      exact .after completes (second value _ rfl)
  | unexpected expected areLexemes breaksOff =>
      refine .unexpected expected areLexemes ⟨?_, ?_⟩
      · rcases breaksOff.isStart with ⟨rest, isWord⟩
        rcases inhabited with ⟨word, isBehind⟩
        exact ⟨rest ++ word, List.append_assoc .. ▸ Language.append_mem_mul isWord isBehind⟩
      · rw [mul_assoc]
        exact breaksOff.stuck
  | other notGrammar => exact .other notGrammar

theorem Decides.isSuffix {item : value}
    (decides : Decides length language continuation lexemes (.ok (item, remaining))) :
    remaining <:+ lexemes := by
  cases decides with
  | ok _ areLexemes _ => exact ⟨_, areLexemes.symm⟩

/-- A step that is not about the grammar decides nothing. -/
theorem Decides.check {step : Except TypeError value}
    {next : value → Except TypeError (result × List Lexeme)}
    (notGrammar : ∀ cause, step = .error cause → cause.kind ≠ .grammar)
    (second : ∀ value, Decides length language continuation lexemes (next value)) :
    Decides length language continuation lexemes (step >>= next) := by
  cases step with
  | error cause => exact .other (notGrammar cause rfl)
  | ok value => exact second value

/-- A reader that takes nothing decides the language of the empty word. -/
theorem Decides.nothing (value : result) :
    Decides length 1 continuation lexemes (.ok (value, lexemes)) :=
  .ok value (List.nil_append lexemes).symm ⟨rfl, fun _ _ member => by simpa using member⟩

theorem Decides.map {step : Except TypeError (value × List Lexeme)}
    (decides : Decides length language continuation lexemes step) (change : value → result) :
    Decides length language continuation lexemes (do
      let (value, remaining) ← step
      .ok (change value, remaining)) := by
  rw [← mul_one language]
  rw [← one_mul continuation] at decides
  exact decides.bind ⟨[], rfl⟩ fun value _ _ => .nothing (change value)

theorem completes_only {lexeme : Lexeme} {kind : LexemeKind} (isKind : lexeme.kind = kind) :
    Completes (only kind) continuation [lexeme] remaining where
  isWord := congrArg (fun kind => [kind]) isKind
  ends := fun _ _ member => (cons_mem_only_mul_iff.1 member).2

/-- Expecting a kind decides the language of this kind alone. -/
theorem expect_decides (kind : LexemeKind) :
    Decides length (only kind) continuation lexemes (expect length kind lexemes) := by
  have breaksOff : startsWith kind lexemes = false →
      BreaksOff (only kind) continuation [] lexemes :=
    fun starts => ⟨⟨[kind], rfl⟩, fun word like member =>
      not_beginsLike_of_only starts word member like⟩
  cases lexemes with
  | nil => exact .unexpected _ rfl (breaksOff rfl)
  | cons lexeme rest =>
      by_cases isKind : lexeme.kind = kind
      · simp only [expect, isKind, if_true]
        exact .ok lexeme.text rfl (completes_only isKind)
      · simp only [expect, isKind, if_false]
        exact .unexpected _ rfl (breaksOff (by simpa [startsWith] using isKind))

/-- A result for one language decides the union if no word of the other begins like the lexemes. -/
theorem Decides.alternative {outcome : Except TypeError (result × List Lexeme)}
    (decides : Decides length front continuation lexemes outcome)
    (excluded : ∀ word ∈ back * continuation, ¬BeginsLike word lexemes) :
    Decides length (front + back) continuation lexemes outcome := by
  have isFront : ∀ {taken remaining : List Lexeme} {rest : List LexemeKind},
      lexemes = taken ++ remaining → BeginsLike rest remaining →
      taken.map kind ++ rest ∈ (front + back) * continuation →
      taken.map kind ++ rest ∈ front * continuation := by
    intro taken remaining rest areLexemes like member
    rw [add_mul, Language.mem_add] at member
    refine member.resolve_right fun isBack => ?_
    subst areLexemes
    exact excluded _ isBack (like.append taken)
  cases decides with
  | ok value areLexemes completes =>
      refine .ok value areLexemes ⟨.inl completes.isWord, ?_⟩
      exact fun rest like member => completes.ends rest like (isFront areLexemes like member)
  | unexpected expected areLexemes breaksOff =>
      refine .unexpected expected areLexemes ⟨?_, ?_⟩
      · rcases breaksOff.isStart with ⟨rest, isWord⟩
        exact ⟨rest, .inl isWord⟩
      · exact fun rest like member => breaksOff.stuck rest like (isFront areLexemes like member)
  | other notGrammar => exact .other notGrammar

/-- What can follow the words of a language: nothing, or lexemes of one of the kinds. -/
def FollowedBy (kinds : List LexemeKind) (continuation : Language LexemeKind) : Prop :=
  ∀ word ∈ continuation, ∀ kind ∈ word.head?, kind ∈ kinds

section

variable {kinds : List LexemeKind} {kind : LexemeKind}

/-- Where a part does not start, nothing is read. -/
theorem Decides.skip (value : result) (starts : startsWith kind lexemes = false) :
    Decides length (1 + only kind * back) continuation lexemes (.ok (value, lexemes)) := by
  refine (Decides.nothing value).alternative ?_
  rw [mul_assoc]
  exact not_beginsLike_of_only starts

/-- Where a part starts, and nothing that follows it starts in the same way, it is read. -/
theorem Decides.take {lexeme : Lexeme} {rest : List Lexeme}
    {outcome : Except TypeError (result × List Lexeme)} (follows : FollowedBy kinds continuation)
    (stops : kind ∉ kinds) (isKind : lexeme.kind = kind)
    (decides : Decides length back continuation rest outcome) :
    Decides length (1 + only kind * back) continuation (lexeme :: rest) outcome := by
  rw [add_comm]
  refine (Decides.after (completes_only isKind) decides).alternative ?_
  intro word member like
  rw [one_mul] at member
  refine stops (follows word member kind ?_)
  rw [like, ← isKind]
  rfl

theorem followedBy_one : FollowedBy kinds 1 := by
  rintro word rfl kind isFirst
  cases isFirst

theorem followedBy_only (member : kind ∈ kinds) : FollowedBy kinds (only kind * language) := by
  intro word isWord first isFirst
  rcases mem_only_mul_iff.1 isWord with ⟨rest, -, rfl⟩
  exact Option.some.inj isFirst ▸ member

theorem FollowedBy.mono {others : List LexemeKind} (follows : FollowedBy kinds continuation)
    (within : ∀ kind ∈ kinds, kind ∈ others) : FollowedBy others continuation :=
  fun word member kind isFirst => within kind (follows word member kind isFirst)

/-- A part that may be missing is followed by its first kind as well. -/
theorem FollowedBy.optional (follows : FollowedBy kinds continuation) (member : kind ∈ kinds) :
    FollowedBy kinds ((1 + only kind * language) * continuation) := by
  intro word isWord
  rw [add_mul, one_mul, mul_assoc, Language.mem_add] at isWord
  exact isWord.elim (follows word) (followedBy_only member word)

/-- A part that may be repeated is followed by its first kind as well. -/
theorem FollowedBy.repeated (follows : FollowedBy kinds continuation) (member : kind ∈ kinds) :
    FollowedBy kinds ((only kind * language)∗ * continuation) := by
  rw [repeated_eq]
  exact follows.optional member

end

section

variable {kinds : List LexemeKind}

/-- A loop over pairs of lexemes decides their repetition, if no further pair can follow. -/
theorem RepeatsPairs.decides {opening closing : LexemeKind} {combine : String → value → value}
    {nothing : value} {read : LexemeReader value}
    (pairs : RepeatsPairs length opening closing combine nothing read)
    (follows : FollowedBy kinds continuation) (stops : opening ∉ kinds) (lexemes : List Lexeme) :
    Decides length (only opening * only closing)∗ continuation lexemes (read lexemes) := by
  induction lexemes using pairs_induction length opening closing with
  | stop lexemes starts =>
      rw [repeated_eq, pairs.stop lexemes starts]
      exact .skip nothing starts
  | go lexeme rest isOpening ih =>
      rw [repeated_eq, pairs.go lexeme rest isOpening]
      refine .take follows stops isOpening ?_
      refine (expect_decides closing).bind ⟨[], Language.nil_mem_kstar _⟩ ?_
      intro text behind isClosing
      exact (ih text behind isClosing).map (combine text)

/-- The reader decides a language wherever lexemes of the kinds can follow. -/
def DecidesBefore (length : Nat) (kinds : List LexemeKind) (language : Language LexemeKind)
    (read : LexemeReader result) : Prop :=
  ∀ continuation, FollowedBy kinds continuation → ∀ lexemes,
    Decides length language continuation lexemes (read lexemes)

/--
Separated items decide the list of what an item decides, if no further separator can follow. The
count is used up only where no lexeme is left that could be a separator.
-/
theorem separated_decides {others : List LexemeKind} {read : LexemeReader result}
    (decides : DecidesBefore length kinds language read) {separator : LexemeKind}
    (continues : separator ∈ kinds) (within : ∀ kind ∈ others, kind ∈ kinds)
    (stops : separator ∉ others) {count : Nat} (enough : lexemes.length ≤ count)
    (follows : FollowedBy others continuation) :
    Decides length (listLanguage separator language) continuation lexemes
      (separated separator read count lexemes) := by
  have here : ∀ lexemes, Decides length language ((only separator * language)∗ * continuation)
      lexemes (read lexemes) := decides _ ((follows.mono within).repeated continues)
  induction count generalizing lexemes with
  | zero =>
      cases List.length_eq_zero_iff.1 (Nat.le_zero.1 enough)
      refine (here []).bind ⟨[], Language.nil_mem_kstar _⟩ ?_
      intro first rest isFirst
      cases List.suffix_nil.1 (isFirst ▸ here []).isSuffix
      rw [repeated_eq]
      exact .skip [first] rfl
  | succ count ih =>
      refine (here lexemes).bind ⟨[], Language.nil_mem_kstar _⟩ ?_
      intro first rest isFirst
      have shorter := (isFirst ▸ here lexemes).isSuffix.length_le
      rw [repeated_eq]
      cases rest with
      | nil => exact .skip [first] rfl
      | cons lexeme behind =>
          by_cases isSeparator : lexeme.kind = separator
          · simp only [isSeparator, if_true]
            have fewer : behind.length ≤ count := by
              simp only [List.length_cons] at shorter
              omega
            exact .take follows stops isSeparator ((ih fewer).map (List.cons first))
          · simp only [isSeparator, if_false]
            exact .skip [first] (by simpa [startsWith] using isSeparator)

end

end Grammar

end NominalTypes
