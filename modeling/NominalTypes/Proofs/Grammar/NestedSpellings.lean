import NominalTypes.Proofs.Grammar.Completeness
import NominalTypes.Proofs.Grammar.RoundTrip
import NominalTypes.Proofs.Grammar.SimpleNames

/-!
# Nested classes with dots

In type text a nested class may be named with dots in the place of some or all of its dollar signs.
Such a text differs from the binary name only in dots behind the package, which are the last ones,
so that the binary name is among the names that are tried. Every name that is tried becomes the same
with dots in the place of its dollar signs; where no other class has such a name, the class is found.
-/

namespace NominalTypes

/-- The name with dots in the place of all its dollar signs. -/
def dottedName (name : String) : String :=
  String.ofList (name.toList.map fun character => if character = '$' then '.' else character)

/-- The character stands for the one of the name: a dot may stand for a dollar sign. -/
def StandsForCharacter (original written : Char) : Prop :=
  written = original ∨ original = '$' ∧ written = '.'

instance : DecidableRel StandsForCharacter := fun original written =>
  inferInstanceAs (Decidable (written = original ∨ original = '$' ∧ written = '.'))

/-- The text is the name with dots in the place of some of its dollar signs. -/
def IsSpellingOf (text name : String) : Prop :=
  List.Forall₂ StandsForCharacter name.toList text.toList

instance (text name : String) : Decidable (IsSpellingOf text name) :=
  inferInstanceAs (Decidable (List.Forall₂ StandsForCharacter name.toList text.toList))

/-- The name of a class in a package: identifiers with dots, dollar signs only in the last one. -/
def IsPackagedName (name : String) : Prop :=
  ∃ packages last, name = String.intercalate "." (packages ++ [last]) ∧
    (∀ package ∈ packages, '$' ∉ package.toList) ∧
    ∀ segment ∈ packages ++ [last], Lexeme.IsIdentifier segment

theorem dottedName_append (front back : String) :
    dottedName (front ++ back) = dottedName front ++ dottedName back := by
  simp [dottedName]

theorem dottedName_eq_of_isSpellingOf {text name : String} (spelled : IsSpellingOf text name) :
    dottedName text = dottedName name := by
  rw [IsSpellingOf] at spelled
  rw [dottedName, dottedName]
  congr 1
  generalize text.toList = written at spelled
  generalize name.toList = original at spelled
  induction spelled with
  | nil => rfl
  | cons alike _ ih => rcases alike with rfl | ⟨rfl, rfl⟩ <;> simp [ih]

/-- No dollar sign stands in front of a dot. -/
def DollarsLast (characters : List Char) : Prop :=
  characters.Pairwise fun earlier later => earlier = '$' → later ≠ '.'

/-- In the name of a class in a package the dollar signs come last. -/
theorem IsPackagedName.dollarsLast {name : String} (packaged : IsPackagedName name) :
    DollarsLast name.toList := by
  rcases packaged with ⟨packages, last, rfl, undivided, identifiers⟩
  induction packages with
  | nil =>
      have noDot := (identifiers last (by simp)).hasShape.1.not_mem_of_punctuation?
        (show Lexeme.punctuation? '.' = some .dot from rfl)
      rw [List.nil_append, String.intercalate_singleton]
      apply List.pairwise_of_forall_mem_list
      rintro earlier - later isLater - rfl
      exact noDot isLater
  | cons package packages ih =>
      rw [List.forall_mem_cons] at undivided
      rw [List.cons_append, List.forall_mem_cons] at identifiers
      have rest := ih undivided.2 identifiers.2
      rw [List.cons_append, String.intercalate_cons_of_ne_nil (by simp), String.toList_append,
        DollarsLast, List.pairwise_append]
      have noDollar : '$' ∉ (package ++ ".").toList := by
        simpa using undivided.1
      refine ⟨?_, rest, ?_⟩
      · apply List.pairwise_of_forall_mem_list
        rintro earlier isEarlier later - rfl
        exact absurd isEarlier noDollar
      · rintro earlier isEarlier later - rfl
        exact absurd isEarlier noDollar

theorem eq_of_undivided {original written : List Char}
    (alike : List.Forall₂ StandsForCharacter original written) (noDot : '.' ∉ written) :
    original = written := by
  induction alike with
  | nil => rfl
  | cons first _ ih =>
      rw [List.mem_cons, not_or] at noDot
      rcases first with rfl | ⟨-, rfl⟩
      · rw [ih noDot.2]
      · exact absurd rfl noDot.1

/-- The first dot of a text stands for a dot or a dollar sign, and the name goes on behind it. -/
theorem IsSpellingOf.exists_behind {first rest name : String}
    (spelled : IsSpellingOf (first ++ "." ++ rest) name) (noDot : '.' ∉ first.toList) :
    ∃ behind, IsSpellingOf rest behind ∧
      (name = first ++ "." ++ behind ∨ name = first ++ "$" ++ behind) := by
  have isText : (first ++ "." ++ rest).toList = first.toList ++ '.' :: rest.toList := by simp
  rw [IsSpellingOf, isText] at spelled
  have front := eq_of_undivided (List.forall₂_take_append _ _ _ spelled) noDot
  rcases List.forall₂_cons_right_iff.1 (List.forall₂_drop_append _ _ _ spelled) with
    ⟨separator, behind, isSeparator, isBehind, isRest⟩
  have whole : name.toList = first.toList ++ separator :: behind := by
    rw [← front, ← isRest, List.take_append_drop]
  refine ⟨String.ofList behind, by rwa [IsSpellingOf, String.toList_ofList], ?_⟩
  rcases isSeparator with rfl | ⟨rfl, -⟩
  · exact .inl (String.toList_inj.1 (by simpa using whole))
  · exact .inr (String.toList_inj.1 (by simpa using whole))

namespace Scope

theorem memberName_cons {outer : List String} (nonempty : outer ≠ []) (first : String)
    (members : List String) :
    memberName (first :: outer) members = first ++ "." ++ memberName outer members := by
  simp only [memberName, String.intercalate_cons_of_ne_nil nonempty, String.append_assoc]

theorem memberName_singleton_cons (first second : String) (members : List String) :
    memberName [first] (second :: members) = first ++ "$" ++ memberName [second] members := by
  simp only [memberName, String.intercalate_singleton, List.map_cons, String.join_cons,
    String.append_assoc]

theorem memberName_singleton (first : String) : memberName [first] [] = first := by
  simp [memberName, String.join]

/-- All the names that segments spell have the same name with dots. -/
theorem dottedName_memberName {outer : List String} (nonempty : outer ≠ []) (members : List String) :
    dottedName (memberName outer members) =
      dottedName (String.intercalate "." (outer ++ members)) := by
  induction outer with
  | nil => exact absurd rfl nonempty
  | cons first outer ih =>
      cases outer with
      | cons second outer =>
          rw [memberName_cons (by simp), List.cons_append,
            String.intercalate_cons_of_ne_nil (by simp), dottedName_append, ih (by simp),
            dottedName_append _ (String.intercalate _ _)]
      | nil =>
          clear ih nonempty
          induction members generalizing first with
          | nil => rw [memberName_singleton, List.append_nil, String.intercalate_singleton]
          | cons second members ih =>
              have dollar : dottedName "$" = dottedName "." := by decide
              rw [memberName_singleton_cons, List.singleton_append,
                String.intercalate_cons_of_ne_nil (by simp), dottedName_append, dottedName_append,
                ih second, dottedName_append, dottedName_append, dollar, List.singleton_append]

end Scope

/--
The dots in which a text differs from a binary name are the last ones: behind a dollar sign there is
no dot, so that only members follow.
-/
theorem IsSpellingOf.exists_split {first : String} {further : List String}
    (undivided : ∀ segment ∈ first :: further, '.' ∉ segment.toList) {name : String}
    (spelled : IsSpellingOf (String.intercalate "." (first :: further)) name)
    (dollarsLast : DollarsLast name.toList) :
    ∃ outer members, outer ≠ [] ∧ first :: further = outer ++ members ∧
      name = Scope.memberName outer members := by
  induction further generalizing first name with
  | nil =>
      rw [String.intercalate_singleton] at spelled
      have same := eq_of_undivided spelled (undivided first List.mem_cons_self)
      rw [String.toList_inj.1 same]
      exact ⟨[first], [], by simp, rfl, (Scope.memberName_singleton first).symm⟩
  | cons second others ih =>
      rw [List.forall_mem_cons] at undivided
      rw [String.intercalate_cons_of_ne_nil (by simp)] at spelled
      rcases spelled.exists_behind undivided.1 with ⟨behind, isBehind, isName⟩
      rcases isName with rfl | rfl
      · rw [DollarsLast, String.toList_append, List.pairwise_append] at dollarsLast
        rcases ih undivided.2 isBehind dollarsLast.2.1 with
          ⟨outer, members, nonempty, isSplit, rfl⟩
        refine ⟨first :: outer, members, by simp, ?_, ?_⟩
        · rw [isSplit, List.cons_append]
        · rw [Scope.memberName_cons nonempty]
      · rw [DollarsLast, String.toList_append, List.pairwise_append] at dollarsLast
        rcases dollarsLast with ⟨-, behindLast, crossing⟩
        rcases ih undivided.2 isBehind behindLast with ⟨outer, members, nonempty, isSplit, rfl⟩
        have noDot : '.' ∉ (Scope.memberName outer members).toList := by
          intro isDot
          exact crossing '$' (by simp) '.' isDot rfl rfl
        rcases outer with _ | ⟨only, _ | ⟨next, rest⟩⟩
        · exact absurd rfl nonempty
        · have same : second = only ∧ others = members := List.cons.inj isSplit
          refine ⟨[first], second :: others, by simp, rfl, ?_⟩
          rw [Scope.memberName_singleton_cons, same.1, same.2]
        · rw [Scope.memberName_cons (by simp)] at noDot
          simp at noDot

namespace Scope

variable {scope : Scope}

/-- The only known class among the names that a dotted name may spell is what it stands for. -/
theorem resolve_of_unique {segments : List String} (several : 2 ≤ segments.length) {name : String}
    (isSpelling : name ∈ spellings segments)
    (contained : scope.catalog.contains (.plain name) = true)
    (unique : ∀ other ∈ spellings segments, scope.catalog.contains (.plain other) = true →
      other = name) : scope.resolve segments = .ok (.ofClass (.plain name)) := by
  rcases segments with _ | ⟨first, _ | ⟨second, others⟩⟩
  · simp at several
  · simp at several
  · have isFound : ((spellings (first :: second :: others)).find? fun name =>
        scope.catalog.contains (.plain name)).isSome = true :=
      List.find?_isSome.2 ⟨name, isSpelling, contained⟩
    rcases Option.isSome_iff_exists.1 isFound with ⟨other, found⟩
    have otherContained := List.find?_some found
    have same := unique other (List.mem_of_find?_eq_some found) otherContained
    simp only [resolve, resolveDotted, List.find?_append, found, same, Option.some_or]

/--
A known class among the names that are tried is declared, since a name with dots or dollar signs is
no keyword.
-/
theorem declares_of_mem_spellings {segments : List String} (several : 2 ≤ segments.length)
    {name : String} (isSpelling : name ∈ spellings segments)
    (contained : scope.catalog.contains (.plain name) = true) : scope.catalog.declares name = true := by
  rcases Catalog.contains_plain contained with ⟨primitive, isPrimitive⟩ | declared
  · rcases mem_spellings_iff.1 isSpelling with ⟨outer, members, -, rfl, rfl⟩
    rw [List.length_append] at several
    rcases separates_memberName several with ⟨character, member, separates⟩
    rw [← Primitive.keyword_of_ofKeyword? isPrimitive] at member
    have undivided := simpleNameOf_eq_self_iff.1 (simpleNameOf_keyword primitive) character member
    rw [separates] at undivided
    cases undivided
  · exact declared

/-- A name on its own is read as what it stands for. -/
theorem parse_name {first : String} {further : List String} {referent : Referent}
    (identifiers : ∀ segment ∈ first :: further, Lexeme.IsIdentifier segment)
    (resolved : scope.resolve (first :: further) = .ok referent) (levels : Nat) :
    scope.parse (levels + 1) (String.intercalate "." (first :: further)) = .ok referent.toTy := by
  have writing := Lexeme.isWriting_name fun segment member => (identifiers segment member).isWriting
  have isYield : (TypeTree.named ⟨first, further, 0, [], 0⟩).yield = Symbol.name first further := by
    simp [TypeTree.yield_named, NamedTree.yield_mk, Symbol.suffixes, TypeTree.argumentSymbols]
  have isMeaning : (TypeTree.named ⟨first, further, 0, [], 0⟩).meaning? scope (levels + 1) =
      some referent.toTy :=
    NamedTree.meaning?_eq_some_iff.2
      ⟨referent, [], referent.toTy, resolved, .nil, by cases referent <;> rfl, by decide, rfl⟩
  apply parse_of_tree _ isMeaning
  rw [isYield, Lexeme.significant_map_symbol, writing.symbols_eq]

/--
A nested class is read from its binary name with dots in the place of some of its dollar signs, if
no other class has the same name with dots in the place of all of them.
-/
theorem parse_spelling {name text : String} (declared : name ∈ scope.catalog.names)
    (packaged : IsPackagedName name) (spelled : IsSpellingOf text name) (differs : text ≠ name)
    (readable : IsDottedName text)
    (unique : ∀ other ∈ scope.catalog.names, dottedName other = dottedName name → other = name)
    (levels : Nat) : scope.parse (levels + 1) text = .ok (.nominal (.plain name)) := by
  rcases readable with ⟨first, further, rfl, identifiers⟩
  have undivided : ∀ segment ∈ first :: further, '.' ∉ segment.toList := by
    intro segment member
    exact (identifiers segment member).hasShape.1.not_mem_of_punctuation?
      (show Lexeme.punctuation? '.' = some .dot from rfl)
  have several : 2 ≤ (first :: further).length := by
    cases further with
    | cons second others => simp
    | nil =>
        rw [String.intercalate_singleton] at spelled differs
        have same := eq_of_undivided spelled (undivided first List.mem_cons_self)
        exact absurd (String.toList_inj.1 same).symm differs
  have isSpelling : name ∈ spellings (first :: further) :=
    mem_spellings_iff.2 (spelled.exists_split undivided packaged.dollarsLast)
  have contained := Catalog.contains_of_declares (decide_eq_true declared)
  refine parse_name identifiers (resolve_of_unique several isSpelling contained ?_) levels
  intro other isOther otherContained
  have otherDeclared := declares_of_mem_spellings several isOther otherContained
  apply unique other (of_decide_eq_true otherDeclared)
  rcases mem_spellings_iff.1 isOther with ⟨outer, members, nonempty, isSplit, rfl⟩
  rw [dottedName_memberName nonempty, ← isSplit, dottedName_eq_of_isSpellingOf spelled]

/-- Classes that are nested in each other, and an import of another class for the first word. -/
def nested : Scope where
  catalog := ⟨[⟨"a.Map", .concrete, [], none, []⟩, ⟨"a.Map$Entry", .concrete, [], none, []⟩,
    ⟨"a.Map$Entry$Key", .concrete, [], none, []⟩], by decide⟩
  imports := some ⟨["z.a"], by decide⟩

theorem parse_spelling_key :
    "a.Map$Entry$Key" ∈ nested.catalog.names ∧ IsPackagedName "a.Map$Entry$Key" ∧
      IsSpellingOf "a.Map.Entry$Key" "a.Map$Entry$Key" ∧ IsDottedName "a.Map.Entry$Key" ∧
      (∀ other ∈ nested.catalog.names,
        dottedName other = dottedName "a.Map$Entry$Key" → other = "a.Map$Entry$Key") ∧
      nested.parse 1 "a.Map.Entry$Key" = .ok (.nominal (.plain "a.Map$Entry$Key")) := by
  have declared : "a.Map$Entry$Key" ∈ nested.catalog.names := by decide
  have packaged : IsPackagedName "a.Map$Entry$Key" :=
    ⟨["a"], "Map$Entry$Key", by decide, by decide, by decide⟩
  have spelled : IsSpellingOf "a.Map.Entry$Key" "a.Map$Entry$Key" := by decide
  have readable : IsDottedName "a.Map.Entry$Key" :=
    ⟨"a", ["Map", "Entry$Key"], by decide, by decide⟩
  have unique : ∀ other ∈ nested.catalog.names,
      dottedName other = dottedName "a.Map$Entry$Key" → other = "a.Map$Entry$Key" := by
    decide
  exact ⟨declared, packaged, spelled, readable, unique,
    parse_spelling declared packaged spelled (by decide) readable unique 0⟩

end Scope

end NominalTypes
