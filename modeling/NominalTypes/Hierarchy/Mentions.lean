import NominalTypes.Hierarchy.Paths

/-!
# The classes that supertypes mention

A comparison of types climbs to the supertypes of the classes that stand on their own in them: as the
type itself, as a type argument or as a bound, at any depth. These are the classes that a type
mentions. A lower bound turns the comparison round, so the classes mentioned in lower bounds are told
apart. A class is guarded when from it, over the classes that supertypes mention, no class is reached
to which a lower bound in its own supertypes leads back.
-/

namespace NominalTypes

namespace Ty

mutual

/-- The classes that stand on their own in the expression. -/
def mentions : Ty → List ClassName
  | .nominal named => [named]
  | .array _ => []
  | .parameterized _ _ arguments => mentionsAll arguments
  | .var _ => []
  | .wildcard upper lower => mentionsAll upper ++ mentionsAll lower
termination_by structural ty => ty

/-- `Ty.mentions` for one expression after the other. -/
def mentionsAll : List Ty → List ClassName
  | [] => []
  | ty :: rest => ty.mentions ++ mentionsAll rest
termination_by structural list => list

end

mutual

/-- The classes that stand on their own in the lower bounds of the expression. -/
def lowerMentions : Ty → List ClassName
  | .nominal _ => []
  | .array _ => []
  | .parameterized _ _ arguments => lowerMentionsAll arguments
  | .var _ => []
  | .wildcard upper lower => lowerMentionsAll upper ++ mentionsAll lower
termination_by structural ty => ty

/-- `Ty.lowerMentions` for one expression after the other. -/
def lowerMentionsAll : List Ty → List ClassName
  | [] => []
  | ty :: rest => ty.lowerMentions ++ lowerMentionsAll rest
termination_by structural list => list

end

theorem mem_mentionsAll {named : ClassName} {list : List Ty} :
    named ∈ mentionsAll list ↔ ∃ ty ∈ list, named ∈ ty.mentions := by
  induction list with
  | nil => simp [mentionsAll]
  | cons ty rest ih => simp [mentionsAll, ih]

theorem mem_lowerMentionsAll {named : ClassName} {list : List Ty} :
    named ∈ lowerMentionsAll list ↔ ∃ ty ∈ list, named ∈ ty.lowerMentions := by
  induction list with
  | nil => simp [lowerMentionsAll]
  | cons ty rest ih => simp [lowerMentionsAll, ih]

theorem lowerMentions_subset (self : Ty) : self.lowerMentions ⊆ self.mentions := by
  have each : ∀ {list : List Ty}, (∀ ty ∈ list, ty.lowerMentions ⊆ ty.mentions) →
      lowerMentionsAll list ⊆ mentionsAll list := by
    intro list within named member
    rcases mem_lowerMentionsAll.1 member with ⟨ty, isItem, inItem⟩
    exact mem_mentionsAll.2 ⟨ty, isItem, within ty isItem inItem⟩
  induction self using induct with
  | nominal | array | var => exact List.nil_subset _
  | parameterized owner raw arguments _ ih => exact each ih
  | wildcard upper lower upperIh _ =>
      intro named member
      rcases List.mem_append.1 member with inUpper | inLower
      · exact List.mem_append_left _ (each upperIh inUpper)
      · exact List.mem_append_right _ inLower

end Ty

namespace Catalog

/-- The classes that the supertypes of a class mention. -/
def mentions (self : Catalog) (named : ClassName) : List ClassName :=
  (self.supertypes named).flatMap Ty.mentions

/-- The classes that the supertypes of a class mention in lower bounds. -/
def lowerMentions (self : Catalog) (named : ClassName) : List ClassName :=
  (self.supertypes named).flatMap Ty.lowerMentions

/-- The class leads to the other one over zero or more mentions. -/
def LeadsTo (self : Catalog) : ClassName → ClassName → Prop :=
  Closure.Reaches self.mentions

/-- The class leads to no class that is led back to from a lower bound of its own supertypes. -/
def IsGuarded (self : Catalog) (named : ClassName) : Prop :=
  ∀ reached, self.LeadsTo named reached →
    ∀ lower ∈ self.lowerMentions reached, ¬self.LeadsTo lower reached

end Catalog

end NominalTypes
