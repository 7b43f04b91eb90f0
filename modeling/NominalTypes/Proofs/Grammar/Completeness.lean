import NominalTypes.Proofs.Grammar.Soundness

/-!
# What is derived is read

A reader takes as much as it can. It takes just the lexemes of a derivation where those behind them
could not go on with it: behind a type that is a comma or a closing angle bracket, behind a bound
also an ampersand or `super`. With this the readers are complete for their productions, again part
by part. Together with soundness, `Scope.parse_eq_ok_iff` says that reading a text gives exactly
the type that its derivations denote.
-/

namespace NominalTypes

namespace Grammar

open Lexeme

variable {length : Nat} {scope : Scope} {lexemes remaining : List Lexeme}

/-- Nothing follows, or a lexeme of one of the kinds. -/
def IsFollowedBy (kinds : List LexemeKind) (remaining : List Lexeme) : Prop :=
  ∀ lexeme ∈ remaining.head?, lexeme.kind ∈ kinds

/-- The kinds of lexemes that can follow a type inside another one. -/
def typeFollow : List LexemeKind := [.comma, .angleClose]

/-- The kinds of lexemes that can follow a bound. -/
def boundFollow : List LexemeKind := [.comma, .angleClose, .ampersand, .superWord]

/-- Whatever is spelled by a tree, up to lexemes that can follow it, is read with its meaning. -/
def IsComplete {tree item : Type} (yield : tree → List Symbol) (means : tree → item → Prop)
    (follow : List LexemeKind) (read : LexemeReader item) : Prop :=
  ∀ tree item lexemes remaining, means tree item → Spells lexemes (yield tree) remaining →
    IsFollowedBy follow remaining → read lexemes = .ok (item, remaining)

theorem isFollowedBy_nil (kinds : List LexemeKind) : IsFollowedBy kinds [] := by
  simp [IsFollowedBy]

theorem isFollowedBy_cons {kinds : List LexemeKind} {lexeme : Lexeme} {rest : List Lexeme} :
    IsFollowedBy kinds (lexeme :: rest) ↔ lexeme.kind ∈ kinds := by
  simp [IsFollowedBy]

theorem IsFollowedBy.mono {kinds others : List LexemeKind} (within : ∀ kind ∈ kinds, kind ∈ others)
    (follows : IsFollowedBy kinds remaining) : IsFollowedBy others remaining :=
  fun lexeme isFirst => within lexeme.kind (follows lexeme isFirst)

theorem IsFollowedBy.startsWith_eq_false {kinds : List LexemeKind}
    (follows : IsFollowedBy kinds remaining) {kind : LexemeKind} (excluded : kind ∉ kinds) :
    startsWith kind remaining = false := by
  cases remaining with
  | nil => rfl
  | cons lexeme rest =>
      have isOther : lexeme.kind ≠ kind := by
        rintro rfl
        exact excluded (isFollowedBy_cons.1 follows)
      simpa [startsWith] using isOther

theorem startsWith_of_spells {kind : LexemeKind} {first : Symbol} {symbols : List Symbol}
    (spelled : Spells lexemes (first :: symbols) remaining) :
    startsWith kind lexemes = decide (first.kind = kind) := by
  rcases spells_cons_iff.1 spelled with ⟨lexeme, rest, rfl, rfl, -⟩
  rfl

theorem not_question_of_spells {tree : NamedTree} (spelled : Spells lexemes tree.yield remaining) :
    startsWith .question lexemes = false := by
  rcases tree.exists_yield_eq with ⟨symbols, isYield⟩
  rw [isYield] at spelled
  exact startsWith_of_spells spelled

theorem furtherSegments_of_spells {segments : List String}
    (spelled : Spells lexemes
      (segments.flatMap fun segment => [⟨.dot, "."⟩, ⟨.identifier, segment⟩]) remaining)
    (stops : startsWith .dot remaining = false) :
    furtherSegments length lexemes = .ok (segments, remaining) := by
  induction segments generalizing lexemes with
  | nil =>
      cases spells_nil_iff.1 spelled
      cases remaining with
      | nil => rfl
      | cons lexeme rest =>
          have notDot : ¬lexeme.kind = .dot := by simpa [startsWith] using stops
          unfold furtherSegments
          simp [notDot]
  | cons segment segments ih =>
      rcases spells_cons_iff.1 spelled with ⟨dot, rest, rfl, isDot, spelled⟩
      rcases spells_cons_iff.1 spelled with ⟨word, behind, rfl, isWord, spelled⟩
      have dotKind : dot.kind = .dot := congrArg Symbol.kind isDot
      have wordKind : word.kind = .identifier := congrArg Symbol.kind isWord
      have wordText : word.text = segment := congrArg Symbol.text isWord
      simp only [furtherSegments, dotKind, wordKind, wordText, if_true]
      exact bind_eq_ok.2 ⟨(segments, remaining), ih spelled, rfl⟩

/-- A name is read with all its segments where no dot follows. -/
theorem qualifiedName_of_spells {first : String} {further : List String}
    (spelled : Spells lexemes (Symbol.name first further) remaining)
    (stops : startsWith .dot remaining = false) :
    qualifiedName length lexemes = .ok (first :: further, remaining) := by
  rcases spells_cons_iff.1 spelled with ⟨lexeme, rest, rfl, isFirst, spelled⟩
  exact bind_eq_ok.2 ⟨(first, rest), expect_eq_ok_iff.2 ⟨lexeme, rfl, isFirst⟩,
    bind_eq_ok.2 ⟨(further, remaining), furtherSegments_of_spells spelled stops, rfl⟩⟩

/-- Array suffixes are all counted where no bracket follows. -/
theorem arraySuffixes_of_spells {dims : Nat}
    (spelled : Spells lexemes (Symbol.suffixes dims) remaining)
    (stops : startsWith .bracketOpen remaining = false) :
    arraySuffixes length lexemes = .ok (dims, remaining) := by
  induction dims generalizing lexemes with
  | zero =>
      cases spells_nil_iff.1 spelled
      cases remaining with
      | nil => rfl
      | cons lexeme rest =>
          have notOpen : ¬lexeme.kind = .bracketOpen := by simpa [startsWith] using stops
          unfold arraySuffixes
          simp [notOpen]
  | succ dims ih =>
      rcases spells_cons_iff.1 spelled with ⟨opening, rest, rfl, isOpening, spelled⟩
      rcases spells_cons_iff.1 spelled with ⟨closing, behind, rfl, isClosing, spelled⟩
      have openingKind : opening.kind = .bracketOpen := congrArg Symbol.kind isOpening
      have closingKind : closing.kind = .bracketClose := congrArg Symbol.kind isClosing
      simp only [arraySuffixes, openingKind, closingKind, if_true]
      exact bind_eq_ok.2 ⟨(dims, remaining), ih spelled, rfl⟩

/-- In front of suffixes nothing starts that neither a suffix nor what follows them starts with. -/
theorem startsWith_of_suffixes {kind : LexemeKind} (noBracket : kind ≠ .bracketOpen) {dims : Nat}
    (spelled : Spells lexemes (Symbol.suffixes dims) remaining)
    (stops : startsWith kind remaining = false) : startsWith kind lexemes = false := by
  cases dims with
  | zero =>
      cases spells_nil_iff.1 spelled
      exact stops
  | succ dims =>
      rw [startsWith_of_spells spelled]
      exact decide_eq_false noBracket.symm

/--
Trees with separators between them are read one after the other, if the count allows for their
separators.
-/
theorem separated_of_spells {tree item : Type} {yield : tree → List Symbol}
    {means : tree → item → Prop} {follow : List LexemeKind} {read : LexemeReader item}
    (complete : IsComplete yield means follow read) (separator : Symbol)
    (continues : separator.kind ∈ follow) {trees : List tree} {items : List item}
    (nonempty : trees ≠ []) (areMeanings : List.Forall₂ means trees items) {count : Nat}
    (enough : trees.length ≤ count + 1)
    (spelled : Spells lexemes (Symbol.separate separator (trees.map yield)) remaining)
    (follows : IsFollowedBy follow remaining)
    (stops : startsWith separator.kind remaining = false) :
    separated separator.kind read count lexemes = .ok (items, remaining) := by
  induction areMeanings generalizing lexemes count with
  | nil => exact absurd rfl nonempty
  | @cons tree item trees items isMeaning areMeanings ih =>
      cases trees with
      | nil =>
          cases areMeanings
          have isItem := complete tree item lexemes remaining isMeaning spelled follows
          cases count with
          | zero => exact bind_eq_ok.2 ⟨(item, remaining), isItem, rfl⟩
          | succ count =>
              refine bind_eq_ok.2 ⟨(item, remaining), isItem, ?_⟩
              cases remaining with
              | nil => rfl
              | cons lexeme behind =>
                  have notSeparator : ¬lexeme.kind = separator.kind := by
                    simpa [startsWith] using stops
                  simp [notSeparator]
      | cons second others =>
          rw [List.map_cons, Symbol.separate_cons _ _ (by simp)] at spelled
          rcases spells_append_iff.1 spelled with ⟨middle, spellsFirst, spellsRest⟩
          rcases spells_cons_iff.1 spellsRest with ⟨lexeme, behind, rfl, isSeparator, spellsRest⟩
          have separatorKind : lexeme.kind = separator.kind := congrArg Symbol.kind isSeparator
          have isItem := complete tree item lexemes (lexeme :: behind) isMeaning spellsFirst
            (isFollowedBy_cons.2 (separatorKind ▸ continues))
          cases count with
          | zero => simp at enough
          | succ count =>
              have isRest : separated separator.kind read count behind =
                  .ok (items, remaining) :=
                ih (by simp) (by simpa using enough) spellsRest
              refine bind_eq_ok.2 ⟨(item, lexeme :: behind), isItem, ?_⟩
              simp only [separatorKind, if_true]
              exact bind_eq_ok.2 ⟨(items, remaining), isRest, rfl⟩

theorem length_le_of_spells {tree : Type} {yield : tree → List Symbol} {separator : Symbol}
    {trees : List tree}
    (spelled : Spells lexemes (Symbol.separate separator (trees.map yield)) remaining) :
    trees.length ≤ lexemes.length + 1 := by
  have separators := Symbol.length_le_separate separator (trees.map yield)
  have spelledLength := spelled.length_le
  simp only [List.length_map] at separators
  omega

section

variable {levels : Nat} {read : LexemeReader Ty}

/-- A reader of types is complete for derivations with the given nesting levels. -/
def IsCompleteForTypes (scope : Scope) (levels : Nat) (read : LexemeReader Ty) : Prop :=
  IsComplete TypeTree.yield (fun tree ty => tree.meaning? scope levels = some ty) typeFollow read

/-- The arguments of a class are read with their brackets, and the class is applied to them. -/
theorem application_of_spells (complete : IsCompleteForTypes scope levels read)
    {referent : Referent} (known : referent.IsKnownIn scope) {trees : List TypeTree}
    {types : List Ty}
    (areMeanings : List.Forall₂ (fun tree ty => TypeTree.meaning? scope levels tree = some ty)
      trees types)
    {ty : Ty} (isApplied : referent.applied? scope.catalog types = some ty)
    (spelled : Spells lexemes (TypeTree.argumentSymbols trees) remaining)
    (stops : startsWith .angleOpen remaining = false) :
    application scope length read referent lexemes = .ok (ty, remaining) := by
  cases trees with
  | nil =>
      cases areMeanings
      have isReferent : referent.toTy = ty := by
        cases referent <;> simpa [Referent.applied?] using isApplied
      cases spells_nil_iff.1 spelled
      cases lexemes with
      | nil => simp [application, isReferent]
      | cons lexeme rest =>
          have notOpen : ¬lexeme.kind = .angleOpen := by simpa [startsWith] using stops
          simp [application, notOpen, isReferent]
  | cons tree trees =>
      have someTypes : types ≠ [] := by
        rintro rfl
        cases areMeanings
      rcases spells_cons_iff.1 spelled with ⟨opening, rest, rfl, isOpening, spelled⟩
      rcases spells_append_iff.1 spelled with ⟨behind, spellsTrees, spellsClosing⟩
      rcases spells_cons_iff.1 spellsClosing with ⟨closing, last, rfl, isClosing, spellsNothing⟩
      cases spells_nil_iff.1 spellsNothing
      have openingKind : opening.kind = .angleOpen := congrArg Symbol.kind isOpening
      have closingKind : closing.kind = .angleClose := congrArg Symbol.kind isClosing
      have areTypes := separated_of_spells complete ⟨.comma, ","⟩
        (by simp [typeFollow]) (by simp) areMeanings (length_le_of_spells spellsTrees) spellsTrees
        (isFollowedBy_cons.2 (by simp [closingKind, typeFollow])) (by simp [startsWith, closingKind])
      simp only [application, openingKind, if_true]
      exact bind_eq_ok.2 ⟨(types, closing :: remaining), areTypes, bind_eq_ok.2
        ⟨(">", remaining), expect_eq_ok_iff.2 ⟨closing, rfl, isClosing⟩, bind_eq_ok.2
          ⟨ty, (applied_eq_ok_iff known someTypes).2 isApplied, rfl⟩⟩⟩

/--
Named types are read up to what can follow a bound. Without arguments between them, the suffixes on
both sides are read in one go.
-/
theorem namedType_isComplete (complete : IsCompleteForTypes scope levels read) :
    IsComplete NamedTree.yield (fun tree ty => tree.meaning? scope levels = some ty) boundFollow
      (namedType scope length read) := by
  rintro ⟨first, further, inner, trees, outer⟩ ty lexemes remaining isMeaning spelled follows
  rcases NamedTree.meaning?_eq_some_iff.1 isMeaning with
      ⟨referent, types, element, resolved, areMeanings, isApplied, fits, rfl⟩
  have noDot : startsWith .dot remaining = false := follows.startsWith_eq_false (by decide)
  have noBracket : startsWith .bracketOpen remaining = false :=
    follows.startsWith_eq_false (by decide)
  have noAngle : startsWith .angleOpen remaining = false := follows.startsWith_eq_false (by decide)
  have known := Scope.resolve_isKnownIn resolved
  rw [NamedTree.yield_mk] at spelled
  rcases spells_append_iff.1 spelled with ⟨behindName, spellsName, spelled⟩
  cases trees with
  | nil =>
      have spellsSuffixes : Spells behindName (Symbol.suffixes (inner + outer)) remaining := by
        simpa [TypeTree.argumentSymbols, Symbol.suffixes_add] using spelled
      have nameStops := startsWith_of_suffixes (by simp) spellsSuffixes noDot
      have noMore : Spells remaining [] remaining := spells_nil_iff.2 rfl
      exact namedType_eq_ok_iff.2 ⟨first :: further, behindName, inner + outer, remaining, referent,
        element, remaining, 0, qualifiedName_of_spells spellsName nameStops,
        arraySuffixes_of_spells spellsSuffixes noBracket, resolved,
        application_of_spells complete known areMeanings isApplied noMore noAngle,
        arraySuffixes_of_spells noMore noBracket, fits, rfl⟩
  | cons tree trees =>
      rcases spells_append_iff.1 spelled with ⟨behindSuffixes, spellsInner, spelled⟩
      rcases spells_append_iff.1 spelled with ⟨behindArguments, spellsArguments, spellsOuter⟩
      have startsArguments : ∀ kind,
          startsWith kind behindSuffixes = decide (LexemeKind.angleOpen = kind) :=
        fun kind => startsWith_of_spells spellsArguments
      have nameStops := startsWith_of_suffixes (by simp) spellsInner (startsArguments .dot)
      have argumentsStop := startsWith_of_suffixes (by simp) spellsOuter noAngle
      exact namedType_eq_ok_iff.2 ⟨first :: further, behindName, inner, behindSuffixes, referent,
        element, behindArguments, outer, qualifiedName_of_spells spellsName nameStops,
        arraySuffixes_of_spells spellsInner (startsArguments .bracketOpen), resolved,
        application_of_spells complete known areMeanings isApplied spellsArguments argumentsStop,
        arraySuffixes_of_spells spellsOuter noBracket, fits, rfl⟩

/-- The bounds behind a keyword are read up to what is no ampersand and no such keyword. -/
theorem boundsBehind_of_spells
    (complete : IsComplete NamedTree.yield
      (fun tree ty => tree.boundMeaning? scope levels = some ty) boundFollow (bound read))
    {keyword : Symbol} {trees : List NamedTree} {types : List Ty}
    (areMeanings : List.Forall₂
      (fun tree ty => NamedTree.boundMeaning? scope levels tree = some ty) trees types)
    (spelled : Spells lexemes (NamedTree.boundSymbols keyword trees) remaining)
    (follows : IsFollowedBy boundFollow remaining)
    (stops : startsWith keyword.kind remaining = false)
    (noAmpersand : startsWith .ampersand remaining = false) :
    boundsBehind keyword.kind read lexemes = .ok (types, remaining) := by
  cases trees with
  | nil =>
      cases areMeanings
      cases spells_nil_iff.1 spelled
      cases lexemes with
      | nil => rfl
      | cons lexeme rest =>
          have notKeyword : ¬lexeme.kind = keyword.kind := by simpa [startsWith] using stops
          simp [boundsBehind, notKeyword]
  | cons tree trees =>
      rcases spells_cons_iff.1 spelled with ⟨lexeme, rest, rfl, isKeyword, spelled⟩
      have keywordKind : lexeme.kind = keyword.kind := congrArg Symbol.kind isKeyword
      simp only [boundsBehind, keywordKind, if_true]
      exact separated_of_spells complete ⟨.ampersand, "&"⟩ (by simp [boundFollow])
        (by simp) areMeanings (length_le_of_spells spelled) spelled follows noAmpersand

/--
Both kinds of bounds of a wildcard are read, and make the wildcard that the derivation denotes.
-/
theorem wildcardBounds_of_spells
    (complete : IsComplete NamedTree.yield
      (fun tree ty => tree.boundMeaning? scope levels = some ty) boundFollow (bound read))
    {upper lower : List NamedTree} {ty : Ty}
    (isMeaning : (TypeTree.wildcard upper lower).meaning? scope (levels + 1) = some ty)
    (spelled : Spells lexemes (NamedTree.boundSymbols ⟨.extendsWord, "extends"⟩ upper ++
      NamedTree.boundSymbols ⟨.superWord, "super"⟩ lower) remaining)
    (follows : IsFollowedBy typeFollow remaining) :
    wildcardBounds read lexemes = .ok (ty, remaining) := by
  rcases TypeTree.meaning?_wildcard_eq_some_iff.1 isMeaning with
    ⟨uppers, lowers, upperMeanings, lowerMeanings, isTy⟩
  rcases spells_append_iff.1 spelled with ⟨middle, spellsUpper, spellsLower⟩
  have middleFollows : IsFollowedBy [.comma, .angleClose, .superWord] middle := by
    cases lower with
    | nil =>
        cases spells_nil_iff.1 spellsLower
        exact follows.mono (by decide)
    | cons tree trees =>
        rcases spells_cons_iff.1 spellsLower with ⟨word, behind, rfl, isSuper, -⟩
        have superKind : word.kind = .superWord := congrArg Symbol.kind isSuper
        exact isFollowedBy_cons.2 (by simp [superKind])
  have readsUpper := boundsBehind_of_spells complete upperMeanings spellsUpper
    (middleFollows.mono (by decide)) (middleFollows.startsWith_eq_false (by decide))
    (middleFollows.startsWith_eq_false (by decide))
  have readsLower := boundsBehind_of_spells complete lowerMeanings spellsLower
    (follows.mono (by decide)) (follows.startsWith_eq_false (by decide))
    (follows.startsWith_eq_false (by decide))
  exact wildcardBounds_eq_ok_iff.2 ⟨uppers, middle, lowers, readsUpper, readsLower, isTy⟩

end

theorem bound_isComplete {levels : Nat}
    (complete : ∀ inner < levels, IsCompleteForTypes scope inner (type scope length inner)) :
    IsComplete NamedTree.yield (fun tree ty => tree.boundMeaning? scope levels = some ty)
      boundFollow (bound (type scope length levels)) := by
  intro tree ty lexemes remaining isMeaning spelled follows
  have noQuestion := not_question_of_spells spelled
  cases levels with
  | zero => cases isMeaning
  | succ inner =>
      simp only [bound, noQuestion, type_succ_eq_namedType noQuestion]
      exact namedType_isComplete (complete inner (Nat.lt_succ_self inner)) tree ty lexemes
        remaining isMeaning spelled follows

/-- Types that the grammar derives are read, on every number of nesting levels. -/
theorem type_isComplete (scope : Scope) (length levels : Nat) :
    IsCompleteForTypes scope levels (type scope length levels) := by
  induction levels using Nat.strongRecOn with
  | ind levels ih =>
      intro tree ty lexemes remaining isMeaning spelled follows
      cases levels with
      | zero => simp [TypeTree.meaning?_zero] at isMeaning
      | succ levels =>
          cases tree with
          | named tree =>
              have noQuestion := not_question_of_spells spelled
              rw [type_succ_eq_namedType noQuestion]
              exact namedType_isComplete (ih levels (Nat.lt_succ_self levels)) tree ty lexemes
                remaining isMeaning spelled (follows.mono (by decide))
          | wildcard upper lower =>
              have boundComplete := bound_isComplete fun inner deeper =>
                ih inner (Nat.lt_succ_of_lt deeper)
              rw [TypeTree.yield_wildcard] at spelled
              rcases spells_cons_iff.1 spelled with ⟨question, rest, rfl, isQuestion, spelled⟩
              rw [type_succ_eq_wildcardBounds (congrArg Symbol.kind isQuestion)]
              exact wildcardBounds_of_spells boundComplete isMeaning spelled follows

end Grammar

namespace Scope

variable {scope : Scope} {depth : Nat} {text : String}

/-- A text that a tree derives is read as the type that the tree denotes. -/
theorem parse_of_tree {tree : TypeTree} {ty : Ty}
    (isYield : tree.yield = (Lexeme.significant text).map Lexeme.symbol)
    (isMeaning : tree.meaning? scope depth = some ty) : scope.parse depth text = .ok ty := by
  have spelled : Lexeme.Spells (Lexeme.significant text) tree.yield [] :=
    ⟨Lexeme.significant text, isYield.symm, by simp⟩
  have isType := Grammar.type_isComplete scope text.utf8ByteSize depth tree ty _ [] isMeaning
    spelled (Grammar.isFollowedBy_nil _)
  simp only [Scope.parse]
  cases isText : Lexeme.significant text with
  | nil =>
      rw [isText] at isYield
      exact absurd isYield tree.yield_ne_nil
  | cons first rest =>
      rw [isText] at isType
      exact bind_eq_ok.2 ⟨(ty, []), isType, rfl⟩

/-- The text has a derivation that denotes the type in the scope, within the nesting levels. -/
def Denotes (self : Scope) (depth : Nat) (text : String) (ty : Ty) : Prop :=
  ∃ tree : TypeTree, tree.yield = (Lexeme.significant text).map Lexeme.symbol ∧
    tree.meaning? self depth = some ty

/-- A text is read as a type exactly if it denotes the type, and it denotes at most one. -/
theorem parse_eq_ok_iff (scope : Scope) (depth : Nat) (text : String) :
    (∀ ty, scope.parse depth text = .ok ty ↔ scope.Denotes depth text ty) ∧
      ∀ first second, scope.Denotes depth text first → scope.Denotes depth text second →
        first = second := by
  have reads : ∀ ty, scope.Denotes depth text ty → scope.parse depth text = .ok ty := by
    rintro ty ⟨tree, isYield, isMeaning⟩
    exact parse_of_tree isYield isMeaning
  constructor
  · intro ty
    exact ⟨exists_tree_of_parse, reads ty⟩
  · intro first second isFirst isSecond
    have read := reads first isFirst
    rw [reads second isSecond] at read
    exact (Except.ok.inj read).symm

end Scope

end NominalTypes
