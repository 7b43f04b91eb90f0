/-!
# The last segment of a text

Dotted and nested names are read from their end: what matters is the last separator. `splitLast?`
divides a text there. Its two laws say that the parts put back together around a separator give
the text, with no separator in the second part, and that it fails exactly on texts without a
separator.
-/

namespace NominalTypes

namespace Text

/-- The parts of the text before and after its last separator, if it has one. -/
def splitLast? (separates : Char → Bool) : List Char → Option (List Char × List Char)
  | [] => none
  | character :: rest =>
      match splitLast? separates rest with
      | some (before, after) => some (character :: before, after)
      | none => if separates character then some ([], rest) else none

/-- The part after the last separator, or the whole text where there is none. -/
def lastSegment (separates : Char → Bool) (text : List Char) : List Char :=
  match splitLast? separates text with
  | some (_, after) => after
  | none => text

theorem splitLast?_eq_none_iff {separates : Char → Bool} {text : List Char} :
    splitLast? separates text = none ↔ ∀ character ∈ text, separates character = false := by
  induction text with
  | nil => simp [splitLast?]
  | cons character rest ih =>
      cases split : splitLast? separates rest with
      | none =>
          have absent := ih.1 split
          simp only [splitLast?, split, List.forall_mem_cons]
          cases separates character <;> simp_all
      | some parts =>
          have present : ¬∀ other ∈ rest, separates other = false := by
            intro absent
            simp [ih.2 absent] at split
          simp [splitLast?, split, present]

theorem splitLast?_eq_some {separates : Char → Bool} {text before after : List Char}
    (split : splitLast? separates text = some (before, after)) :
    ∃ separator, separates separator = true ∧ text = before ++ separator :: after ∧
      ∀ character ∈ after, separates character = false := by
  induction text generalizing before with
  | nil => simp [splitLast?] at split
  | cons character rest ih =>
      cases tail : splitLast? separates rest with
      | none =>
          have absent := splitLast?_eq_none_iff.1 tail
          by_cases isSeparator : separates character = true
          · simp only [splitLast?, tail, isSeparator, if_true, Option.some.injEq,
              Prod.mk.injEq] at split
            obtain ⟨rfl, rfl⟩ := split
            exact ⟨character, isSeparator, rfl, absent⟩
          · simp [splitLast?, tail, isSeparator] at split
      | some parts =>
          obtain ⟨inner, last⟩ := parts
          simp only [splitLast?, tail, Option.some.injEq, Prod.mk.injEq] at split
          obtain ⟨rfl, rfl⟩ := split
          obtain ⟨separator, isSeparator, rfl, absent⟩ := ih tail
          exact ⟨separator, isSeparator, rfl, absent⟩

end Text

end NominalTypes
