import Mathlib.Computability.Language
import NominalTypes.Proofs.Grammar.Trees

/-!
# The grammar as equations between languages

Names apart, a sentence is a sequence of kinds of lexemes. The sequences that the derivations of a
part of the grammar are written with are a language, and a production says how this language is put
together from others by union, concatenation and repetition. The equations here are in the order in
which text is read from left to right: each says with which kind of lexeme a part goes on that may
be missing.
-/

namespace NominalTypes

namespace Grammar

open scoped Computability

/-- The language of which one lexeme of the kind is the only word. -/
def only (kind : LexemeKind) : Language LexemeKind := {[kind]}

/-- The kinds of the symbols that the trees are written with. -/
def written {tree : Type} (yield : tree → List Symbol) : Language LexemeKind :=
  Set.range fun tree => (yield tree).map Symbol.kind

/-- The words that names are written with. -/
def nameLanguage : Language LexemeKind := only .identifier * (only .dot * only .identifier)∗

/-- The words that array dimensions are written with. -/
def suffixLanguage : Language LexemeKind := (only .bracketOpen * only .bracketClose)∗

/-- One or more words of a language with separators between them. -/
def listLanguage (separator : LexemeKind) (item : Language LexemeKind) : Language LexemeKind :=
  item * (only separator * item)∗

/-- The words that bounds are written with, the empty one where the keyword is missing. -/
def boundLanguage (keyword : LexemeKind) : Language LexemeKind :=
  1 + only keyword * listLanguage .ampersand (written NamedTree.yield)

/-- The words behind the name and its array dimensions, if any follow. -/
def argumentLanguage : Language LexemeKind :=
  1 + only .angleOpen *
    (listLanguage .comma (written TypeTree.yield) * (only .angleClose * suffixLanguage))

theorem mem_only_mul_iff {kind : LexemeKind} {behind : Language LexemeKind}
    {word : List LexemeKind} :
    word ∈ only kind * behind ↔ ∃ rest ∈ behind, kind :: rest = word := by
  rw [Language.mem_mul]
  constructor
  · rintro ⟨first, rfl, rest, isRest, rfl⟩
    exact ⟨rest, isRest, rfl⟩
  · rintro ⟨rest, isRest, rfl⟩
    exact ⟨[kind], rfl, rest, isRest, rfl⟩

theorem cons_mem_only_mul_iff {kind first : LexemeKind} {behind : Language LexemeKind}
    {rest : List LexemeKind} :
    first :: rest ∈ only kind * behind ↔ first = kind ∧ rest ∈ behind := by
  simp only [mem_only_mul_iff, List.cons.injEq]
  constructor
  · rintro ⟨_, isRest, rfl, rfl⟩
    exact ⟨rfl, isRest⟩
  · rintro ⟨rfl, isRest⟩
    exact ⟨rest, isRest, rfl, rfl⟩

/-- A repetition ends, or it goes on with the lexeme that each round starts with. -/
theorem repeated_eq (kind : LexemeKind) (behind : Language LexemeKind) :
    (only kind * behind)∗ = 1 + only kind * (behind * (only kind * behind)∗) := by
  rw [← mul_assoc, Language.one_add_self_mul_kstar_eq_kstar]

/-- What is repeated is written one tree after the other. -/
theorem mem_kstar_range_iff {tree : Type} {write : tree → List LexemeKind}
    {language : Language LexemeKind} (isRange : ∀ word, word ∈ language ↔ ∃ tree, write tree = word)
    {word : List LexemeKind} :
    word ∈ language∗ ↔ ∃ trees : List tree, trees.flatMap write = word := by
  rw [Language.mem_kstar]
  constructor
  · rintro ⟨words, rfl, areWords⟩
    induction words with
    | nil => exact ⟨[], rfl⟩
    | cons first rest ih =>
        rcases List.forall_mem_cons.1 areWords with ⟨isFirst, areRest⟩
        rcases (isRange first).1 isFirst with ⟨tree, rfl⟩
        rcases ih areRest with ⟨trees, isRest⟩
        exact ⟨tree :: trees, by rw [List.flatMap_cons, List.flatten_cons, isRest]⟩
  · rintro ⟨trees, rfl⟩
    refine ⟨trees.map write, (List.flatMap_def ..), ?_⟩
    intro word isWord
    rcases List.mem_map.1 isWord with ⟨tree, -, rfl⟩
    exact (isRange _).2 ⟨tree, rfl⟩

theorem mem_nameLanguage_iff {word : List LexemeKind} :
    word ∈ nameLanguage ↔
      ∃ first further, (Symbol.name first further).map Symbol.kind = word := by
  have segment : ∀ word, word ∈ only .dot * only .identifier ↔
      ∃ _ : String, [.dot, .identifier] = word := by
    intro word
    simp only [mem_only_mul_iff]
    constructor
    · rintro ⟨_, rfl, rfl⟩
      exact ⟨"", rfl⟩
    · rintro ⟨-, rfl⟩
      exact ⟨[.identifier], rfl, rfl⟩
  simp only [nameLanguage, mem_only_mul_iff, mem_kstar_range_iff segment, Symbol.name]
  constructor
  · rintro ⟨_, ⟨further, rfl⟩, rfl⟩
    exact ⟨"", further, by simp [List.map_flatMap]⟩
  · rintro ⟨first, further, rfl⟩
    exact ⟨_, ⟨further, rfl⟩, by simp [List.map_flatMap]⟩

theorem mem_suffixLanguage_iff {word : List LexemeKind} :
    word ∈ suffixLanguage ↔ ∃ dims, (Symbol.suffixes dims).map Symbol.kind = word := by
  have power : ∀ dims, word ∈ (only .bracketOpen * only .bracketClose) ^ dims ↔
      (Symbol.suffixes dims).map Symbol.kind = word := by
    intro dims
    induction dims generalizing word with
    | zero => simp [Symbol.suffixes, eq_comm]
    | succ dims ih =>
        simp only [pow_succ', mul_assoc, mem_only_mul_iff, ih, Symbol.suffixes, List.map_cons]
        simp
  rw [suffixLanguage, Language.kstar_eq_iSup_pow, Language.mem_iSup]
  exact exists_congr power

theorem separate_cons_eq_flatMap (separator : Symbol) (first : List Symbol)
    (rest : List (List Symbol)) :
    Symbol.separate separator (first :: rest) =
      first ++ rest.flatMap fun part => separator :: part := by
  induction rest generalizing first with
  | nil => simp [Symbol.separate]
  | cons second rest ih =>
      rw [Symbol.separate_cons _ _ (by simp), ih, List.flatMap_cons, List.cons_append]

/-- Lists of one or more trees are written with the words of the list language. -/
theorem mem_listLanguage_iff {tree : Type} (separator : Symbol) (yield : tree → List Symbol)
    {word : List LexemeKind} :
    word ∈ listLanguage separator.kind (written yield) ↔
      ∃ trees : List tree, trees ≠ [] ∧
        (Symbol.separate separator (trees.map yield)).map Symbol.kind = word := by
  have item : ∀ word, word ∈ only separator.kind * written yield ↔
      ∃ tree, separator.kind :: (yield tree).map Symbol.kind = word := by
    intro word
    rw [mem_only_mul_iff]
    exact Set.exists_range_iff
  rw [listLanguage, Language.mem_mul]
  constructor
  · rintro ⟨_, ⟨first, rfl⟩, rest, isRest, rfl⟩
    rcases (mem_kstar_range_iff item).1 isRest with ⟨trees, rfl⟩
    refine ⟨first :: trees, by simp, ?_⟩
    simp [separate_cons_eq_flatMap, List.map_flatMap, List.flatMap_map]
  · rintro ⟨trees, nonempty, rfl⟩
    rcases List.exists_cons_of_ne_nil nonempty with ⟨first, trees, rfl⟩
    refine ⟨_, ⟨first, rfl⟩, _, (mem_kstar_range_iff item).2 ⟨trees, rfl⟩, ?_⟩
    simp [separate_cons_eq_flatMap, List.map_flatMap, List.flatMap_map]

/-- Bounds behind their keyword are written with the words of the bound language. -/
theorem mem_boundLanguage_iff (keyword : Symbol) {word : List LexemeKind} :
    word ∈ boundLanguage keyword.kind ↔
      ∃ bounds, (NamedTree.boundSymbols keyword bounds).map Symbol.kind = word := by
  rw [boundLanguage, Language.mem_add, Language.mem_one, mem_only_mul_iff]
  constructor
  · rintro (rfl | ⟨_, isList, rfl⟩)
    · exact ⟨[], rfl⟩
    · rcases (mem_listLanguage_iff ⟨.ampersand, "&"⟩ _).1 isList with ⟨bounds, nonempty, rfl⟩
      exact ⟨bounds, by simp [NamedTree.boundSymbols, nonempty]⟩
  · rintro ⟨bounds, rfl⟩
    cases bounds with
    | nil => exact .inl rfl
    | cons first others =>
        have isList := (mem_listLanguage_iff ⟨.ampersand, "&"⟩ NamedTree.yield).2
          ⟨first :: others, by simp, rfl⟩
        exact .inr ⟨_, isList, rfl⟩

/-- What follows a name is nothing, or arguments with array suffixes behind them. -/
theorem mem_argumentLanguage_iff {word : List LexemeKind} :
    word ∈ argumentLanguage ↔ word = [] ∨ ∃ arguments outer, arguments ≠ [] ∧
      (TypeTree.argumentSymbols arguments ++ Symbol.suffixes outer).map Symbol.kind = word := by
  rw [argumentLanguage, Language.mem_add, Language.mem_one, mem_only_mul_iff]
  refine or_congr_right ⟨?_, ?_⟩
  · rintro ⟨_, ⟨_, isList, _, isBehind, rfl⟩, rfl⟩
    rcases (mem_listLanguage_iff ⟨.comma, ","⟩ _).1 isList with ⟨arguments, nonempty, rfl⟩
    rcases mem_only_mul_iff.1 isBehind with ⟨_, areSuffixes, rfl⟩
    rcases mem_suffixLanguage_iff.1 areSuffixes with ⟨outer, rfl⟩
    exact ⟨arguments, outer, nonempty, by simp [TypeTree.argumentSymbols, nonempty]⟩
  · rintro ⟨arguments, outer, nonempty, rfl⟩
    have isList := (mem_listLanguage_iff ⟨.comma, ","⟩ TypeTree.yield).2
      ⟨arguments, nonempty, rfl⟩
    have areSuffixes := mem_suffixLanguage_iff.2 ⟨outer, rfl⟩
    refine ⟨_, Language.append_mem_mul isList (cons_mem_only_mul_iff.2 ⟨rfl, areSuffixes⟩), ?_⟩
    simp [TypeTree.argumentSymbols, nonempty]

/--
A named type is written as a name with its suffixes, and as what follows them. Without arguments
between them, the suffixes on both sides are in one place.
-/
theorem written_namedTree :
    written NamedTree.yield = nameLanguage * (suffixLanguage * argumentLanguage) := by
  ext word
  simp only [Language.mem_mul, mem_nameLanguage_iff, mem_suffixLanguage_iff,
    mem_argumentLanguage_iff]
  constructor
  · rintro ⟨⟨first, further, inner, arguments, outer⟩, rfl⟩
    cases arguments with
    | nil =>
        refine ⟨_, ⟨first, further, rfl⟩, _, ⟨_, ⟨inner + outer, rfl⟩, [], .inl rfl, rfl⟩, ?_⟩
        simp [NamedTree.yield_mk, TypeTree.argumentSymbols, Symbol.suffixes_add]
    | cons argument arguments =>
        refine ⟨_, ⟨first, further, rfl⟩, _, ⟨_, ⟨inner, rfl⟩, _,
          .inr ⟨argument :: arguments, outer, by simp, rfl⟩, rfl⟩, ?_⟩
        simp [NamedTree.yield_mk]
  · rintro ⟨_, ⟨first, further, rfl⟩, _, ⟨_, ⟨inner, rfl⟩, _, isBehind, rfl⟩, rfl⟩
    rcases isBehind with rfl | ⟨arguments, outer, -, rfl⟩
    · refine ⟨⟨first, further, inner, [], 0⟩, ?_⟩
      simp [NamedTree.yield_mk, TypeTree.argumentSymbols, Symbol.suffixes]
    · exact ⟨⟨first, further, inner, arguments, outer⟩, by simp [NamedTree.yield_mk]⟩

/-- A type is written as a named type, or as a question mark with the bounds of a wildcard. -/
theorem written_typeTree :
    written TypeTree.yield = written NamedTree.yield +
      only .question * (boundLanguage .extendsWord * boundLanguage .superWord) := by
  ext word
  rw [Language.mem_add, mem_only_mul_iff]
  constructor
  · rintro ⟨tree, rfl⟩
    cases tree with
    | named type => exact .inl ⟨type, rfl⟩
    | wildcard upper lower =>
        have isUpper := (mem_boundLanguage_iff ⟨.extendsWord, "extends"⟩).2 ⟨upper, rfl⟩
        have isLower := (mem_boundLanguage_iff ⟨.superWord, "super"⟩).2 ⟨lower, rfl⟩
        refine .inr ⟨_, Language.append_mem_mul isUpper isLower, ?_⟩
        simp [TypeTree.yield_wildcard]
  · rintro (⟨type, rfl⟩ | ⟨_, ⟨_, isUpper, _, isLower, rfl⟩, rfl⟩)
    · exact ⟨.named type, rfl⟩
    · rcases (mem_boundLanguage_iff ⟨.extendsWord, "extends"⟩).1 isUpper with ⟨upper, rfl⟩
      rcases (mem_boundLanguage_iff ⟨.superWord, "super"⟩).1 isLower with ⟨lower, rfl⟩
      exact ⟨.wildcard upper lower, by simp [TypeTree.yield_wildcard]⟩

end Grammar

end NominalTypes
