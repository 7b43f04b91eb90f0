import NominalTypes.Proofs.Grammar.Names
import NominalTypes.Proofs.Grammar.Writing

/-!
# Simple names of classes

A binary name is made of segments, with dots between packages and dollar signs between nested
classes. Its simple name is the last segment. A class whose binary name has no separator is named by
that alone: no dotted name stands for it, and no import of another class by its simple name leaves a
simple name for it.
-/

namespace NominalTypes

namespace Text

variable {separates : Char → Bool}

theorem lastSegment_eq_self {text : List Char}
    (undivided : ∀ character ∈ text, separates character = false) :
    lastSegment separates text = text := by
  rw [lastSegment, splitLast?_eq_none_iff.2 undivided]

theorem forall_mem_lastSegment (separates : Char → Bool) (text : List Char) :
    ∀ character ∈ lastSegment separates text, separates character = false := by
  rw [lastSegment]
  cases split : splitLast? separates text with
  | none => exact splitLast?_eq_none_iff.1 split
  | some parts =>
      rcases splitLast?_eq_some split with ⟨_, -, -, undivided⟩
      exact undivided

theorem lastSegment_append_cons {separator : Char} (isSeparator : separates separator = true)
    (before text : List Char) :
    lastSegment separates (before ++ separator :: text) = lastSegment separates text := by
  induction before with
  | nil =>
      simp only [List.nil_append, lastSegment, splitLast?, isSeparator, if_true]
      cases splitLast? separates text <;> rfl
  | cons first rest ih =>
      rw [← ih, List.cons_append]
      cases split : splitLast? separates (rest ++ separator :: text) with
      | none =>
          have undivided := splitLast?_eq_none_iff.1 split separator (by simp)
          rw [isSeparator] at undivided
          cases undivided
      | some parts => simp only [lastSegment, splitLast?, split]

end Text

theorem separatesSegments_simpleNameOf (name : String) :
    ∀ character ∈ (simpleNameOf name).toList, separatesSegments character = false := by
  rw [simpleNameOf, String.toList_ofList]
  exact Text.forall_mem_lastSegment separatesSegments name.toList

/-- A name is its own simple name if it has no separator. -/
theorem simpleNameOf_eq_self_iff {name : String} :
    simpleNameOf name = name ↔ ∀ character ∈ name.toList, separatesSegments character = false := by
  constructor
  · intro same
    rw [← same]
    exact separatesSegments_simpleNameOf name
  · intro undivided
    rw [simpleNameOf, Text.lastSegment_eq_self undivided, String.ofList_toList]

theorem simpleNameOf_keyword (primitive : Primitive) :
    simpleNameOf primitive.keyword = primitive.keyword := by
  cases primitive <;> decide

/-- The simple name of names with separators between them is that of the last one. -/
theorem simpleNameOf_intercalate {between : String} {separator : Char}
    (isBetween : between.toList = [separator]) (separates : separatesSegments separator = true)
    {names : List String} (nonempty : names ≠ []) :
    simpleNameOf (String.intercalate between names) = simpleNameOf (names.getLast nonempty) := by
  induction names with
  | nil => exact absurd rfl nonempty
  | cons first rest ih =>
      cases rest with
      | nil => simp
      | cons second others =>
          rw [String.intercalate_cons_of_ne_nil (by simp), List.getLast_cons (by simp),
            ← ih (by simp)]
          simp only [simpleNameOf, String.toList_append, isBetween, List.append_assoc,
            List.singleton_append, Text.lastSegment_append_cons separates]

/--
A segment of a binary name is an identifier without dollar signs, so that it starts with a letter or
an underscore, and it is no primitive's keyword.
-/
structure IsNameSegment (segment : String) : Prop where
  identifier : Lexeme.IsIdentifier segment
  undivided : '$' ∉ segment.toList
  noKeyword : Primitive.ofKeyword? segment = none

/-- The name of a class within its package: segments with dollar signs between them. -/
def IsNestedName (word : String) : Prop :=
  ∃ first further, word = String.intercalate "$" (first :: further) ∧
    ∀ segment ∈ first :: further, IsNameSegment segment

/-- The name is made of segments with dots and dollar signs between them. -/
def IsSegmentedName (name : String) : Prop :=
  ∃ first further, name = String.intercalate "." (first :: further) ∧
    ∀ word ∈ first :: further, IsNestedName word

/-- The names of the declared classes are made of segments with dots and dollar signs. -/
def Catalog.HasSegmentedNames (self : Catalog) : Prop := ∀ name ∈ self.names, IsSegmentedName name

namespace IsNameSegment

variable {segment : String}

theorem isWord (isSegment : IsNameSegment segment) : Lexeme.IsWord segment.toList :=
  isSegment.identifier.hasShape.1

theorem separatesSegments_eq_false (isSegment : IsNameSegment segment) :
    ∀ character ∈ segment.toList, separatesSegments character = false := by
  intro character member
  have noDot : character ≠ '.' := by
    rintro rfl
    exact isSegment.isWord.not_mem_of_punctuation? (show _ = some .dot from rfl) member
  have noDollar : character ≠ '$' := by
    rintro rfl
    exact isSegment.undivided member
  simp [separatesSegments, noDot, noDollar]

end IsNameSegment

theorem IsNestedName.isWord {word : String} (nested : IsNestedName word) :
    Lexeme.IsWord word.toList := by
  rcases nested with ⟨first, further, rfl, segments⟩
  induction further generalizing first with
  | nil =>
      rw [String.intercalate_singleton]
      exact (segments first List.mem_cons_self).isWord
  | cons second others ih =>
      rcases List.forall_mem_cons.1 segments with ⟨isFirst, others⟩
      rcases isFirst.isWord with ⟨start, rest, isText, starts, continues⟩
      rcases ih second others with ⟨next, behind, isNext, startsNext, continuesBehind⟩
      refine ⟨start, rest ++ '$' :: next :: behind, ?_, starts, ?_⟩
      · rw [String.intercalate_cons_of_ne_nil (by simp), String.toList_append, String.toList_append,
          isText, isNext]
        simp
      · have dollar : Lexeme.continuesWord '$' = true := by decide
        have continuesNext : Lexeme.continuesWord next = true := by
          simp [Lexeme.continuesWord, startsNext]
        simp only [List.forall_mem_append, List.forall_mem_cons]
        exact ⟨continues, dollar, continuesNext, continuesBehind⟩

/--
A nested name has the shape of an identifier: a single segment is one, and the two keywords have no
dollar sign.
-/
theorem IsNestedName.hasShape {word : String} (nested : IsNestedName word) :
    Lexeme.HasShape ⟨.identifier, 0, word⟩ := by
  have isWord := nested.isWord
  rcases nested with ⟨first, further, rfl, segments⟩
  cases further with
  | nil =>
      rw [String.intercalate_singleton]
      exact (segments first List.mem_cons_self).identifier.hasShape
  | cons second others =>
      have divided : '$' ∈ (String.intercalate "$" (first :: second :: others)).toList := by
        rw [String.intercalate_cons_of_ne_nil (by simp)]
        simp
      have differs : ∀ keyword : String, '$' ∉ keyword.toList →
          String.intercalate "$" (first :: second :: others) ≠ keyword := by
        rintro keyword undivided rfl
        exact undivided divided
      exact ⟨isWord, differs "extends" (by decide), differs "super" (by decide)⟩

theorem IsNestedName.isWriting {word : String} (nested : IsNestedName word) :
    Lexeme.IsWriting [⟨.identifier, word⟩] word.toList :=
  nested.hasShape.isWriting rfl

/-- The simple name of a segmented name is one of its segments. -/
theorem IsSegmentedName.isNameSegment {name : String} (segmented : IsSegmentedName name) :
    IsNameSegment (simpleNameOf name) := by
  rcases segmented with ⟨firstWord, furtherWords, rfl, words⟩
  rw [simpleNameOf_intercalate (show _ = ['.'] from rfl) rfl (List.cons_ne_nil _ _)]
  rcases words _ (List.getLast_mem _) with ⟨first, further, isWord, segments⟩
  rw [isWord, simpleNameOf_intercalate (show _ = ['$'] from rfl) rfl (List.cons_ne_nil _ _)]
  have isSegment := segments _ (List.getLast_mem (List.cons_ne_nil first further))
  rwa [simpleNameOf_eq_self_iff.2 isSegment.separatesSegments_eq_false]

/-- A segmented name is no primitive's keyword. -/
theorem IsSegmentedName.noKeyword {name : String} (segmented : IsSegmentedName name) :
    Primitive.ofKeyword? name = none := by
  cases isPrimitive : Primitive.ofKeyword? name with
  | none => rfl
  | some primitive =>
      have isKeyword := Primitive.keyword_of_ofKeyword? isPrimitive
      have noKeyword := segmented.isNameSegment.noKeyword
      rw [← isKeyword, simpleNameOf_keyword, Primitive.ofKeyword?_keyword] at noKeyword
      cases noKeyword

/-- A simple name resolves to the class if the class is the only import that has it. -/
theorem Imports.isUnambiguous_plain_iff {imports : Imports} {name : String} :
    imports.isUnambiguous (.plain name) = true ↔
      imports.candidates (simpleNameOf name) = [name] := by
  have isSimple : (ClassName.plain name).simpleName = simpleNameOf name := rfl
  have isName : (ClassName.plain name).name = name := rfl
  rw [← Imports.resolve_eq_ok_iff, isUnambiguous, isSimple, isName]
  cases imports.resolve (simpleNameOf name) with
  | error cause => simp
  | ok name => simp

namespace Scope

theorem separates_memberName {outer members : List String}
    (several : 2 ≤ outer.length + members.length) :
    ∃ character ∈ (memberName outer members).toList, separatesSegments character = true := by
  cases members with
  | cons first rest =>
      refine ⟨'$', ?_, rfl⟩
      rw [memberName, List.map_cons, String.join_cons]
      simp
  | nil =>
      rcases outer with _ | ⟨first, _ | ⟨second, others⟩⟩
      · simp at several
      · simp at several
      · refine ⟨'.', ?_, rfl⟩
        rw [memberName, String.intercalate_cons_of_ne_nil (by simp)]
        simp

variable {scope : Scope}

/-- The imports that a word may stand for have the word as simple name. -/
theorem simpleNameOf_of_mem_candidates {word name : String}
    (isCandidate : name ∈ scope.candidates word) : simpleNameOf name = word := by
  simp only [candidates] at isCandidate
  split at isCandidate
  · simpa using (List.mem_filter.1 isCandidate).2
  · cases isCandidate

/-- The class that a dotted name stands for has a separator in its name. -/
theorem separates_of_resolveDotted {first second : String} {others : List String}
    {named : ClassName}
    (resolved : scope.resolveDotted (first :: second :: others) = .ok (.ofClass named)) :
    ∃ character ∈ named.name.toList, separatesSegments character = true := by
  simp only [resolveDotted] at resolved
  split at resolved
  · next name found =>
    cases resolved
    rcases List.mem_append.1 (List.mem_of_find?_eq_some found) with isSpelling | isImported
    · rcases mem_spellings_iff.1 isSpelling with ⟨outer, members, -, isSplit, rfl⟩
      apply separates_memberName
      rw [← List.length_append, ← isSplit]
      simp
    · simp only [importedSpelling] at isImported
      split at isImported
      · cases List.mem_singleton.1 isImported
        apply separates_memberName
        simp only [List.length_cons]
        omega
      · cases isImported
  · cases resolved

/-- A class without separators in its name is only named where no other class takes its name. -/
theorem candidates_of_resolve {segments : List String} {name : String}
    (resolved : scope.resolve segments = .ok (.ofClass (.plain name)))
    (simple : simpleNameOf name = name) (noKeyword : Primitive.ofKeyword? name = none) :
    scope.candidates name = [] ∨ scope.candidates name = [name] := by
  have ofKnown : ∀ other, scope.known other = .ok (.ofClass (.plain name)) → other = name := by
    intro other isKnown
    cases (known_eq_ok_iff.1 isKnown).2
    rfl
  rcases segments with _ | ⟨word, _ | ⟨second, others⟩⟩
  · simp [resolve, resolveDotted, spellings, importedSpelling] at resolved
  · simp only [resolve, resolveSimple] at resolved
    split at resolved
    · next primitive isPrimitive =>
      cases resolved
      rw [Primitive.ofKeyword?_keyword] at noKeyword
      cases noKeyword
    · split at resolved
      · cases resolved
      · split at resolved
        · next none =>
          cases ofKnown _ resolved
          exact Or.inl none
        · next only single =>
          cases ofKnown _ resolved
          have isSimple : simpleNameOf name = word :=
            simpleNameOf_of_mem_candidates (single ▸ List.mem_singleton.2 rfl)
          rw [← isSimple, simple] at single
          exact Or.inr single
        · cases resolved
  · rcases separates_of_resolveDotted resolved with ⟨character, member, separates⟩
    have undivided := simpleNameOf_eq_self_iff.1 simple character member
    rw [separates] at undivided
    cases undivided

end Scope

end NominalTypes
