import NominalTypes.Json.Decimal

/-!
# JSON values

The values that JSON text denotes. Object members keep their order and may repeat a name. An
escape in JSON text can stand for one half of a surrogate pair without the other; the string that
it stands in is then no text. Numbers are kept as they are written, for the one question that is
asked about them: whether they are finite in double precision.
-/

namespace NominalTypes

/-- A JSON value; strings and member names that are no text are `none`. -/
inductive Json where
  | null
  | bool (value : Bool)
  | number (decimal : Decimal)
  | string (text : Option String)
  | array (items : List Json)
  | object (members : List (Option String × Json))

namespace Json

mutual

/-- The number of arrays and objects around the innermost part of the value. -/
def depth : Json → Nat
  | .array items => depthOfItems items + 1
  | .object members => depthOfMembers members + 1
  | _ => 0
termination_by structural json => json

/-- The greatest depth of the items. -/
def depthOfItems : List Json → Nat
  | [] => 0
  | item :: items => max item.depth (depthOfItems items)
termination_by structural items => items

/-- The greatest depth of the values of the members. -/
def depthOfMembers : List (Option String × Json) → Nat
  | [] => 0
  | member :: members => max (depthOfMember member) (depthOfMembers members)
termination_by structural members => members

/-- The depth of the value of the member. -/
def depthOfMember : Option String × Json → Nat
  | (_, value) => value.depth
termination_by structural member => member

end

mutual

/-- All strings in the value are text, and all numbers are finite in double precision. -/
def isRepresentable : Json → Bool
  | .null | .bool _ => true
  | .number decimal => !decimal.exceedsDouble
  | .string text => text.isSome
  | .array items => areRepresentable items
  | .object members => haveRepresentable members
termination_by structural json => json

/-- `Json.isRepresentable` for all the items. -/
def areRepresentable : List Json → Bool
  | [] => true
  | item :: items => item.isRepresentable && areRepresentable items
termination_by structural items => items

/-- `Json.isRepresentable` for the names and values of all the members. -/
def haveRepresentable : List (Option String × Json) → Bool
  | [] => true
  | member :: members => hasRepresentable member && haveRepresentable members
termination_by structural members => members

/-- `Json.isRepresentable` for the name and the value of a member. -/
def hasRepresentable : Option String × Json → Bool
  | (name, value) => name.isSome && value.isRepresentable
termination_by structural member => member

end

/-- The text of a string value. -/
def text? : Json → Option String
  | .string text => text
  | _ => none

/-- The texts of an array of string values. -/
def texts? : Json → Option (List String)
  | .array items => items.mapM text?
  | _ => none

/-- The value of the member of a name, if it is there; nothing at all if it is there twice. -/
def uniqueMember (members : List (Option String × Json)) (name : String) :
    Option (Option Json) :=
  match members.filter fun member => member.1 = some name with
  | [] => some none
  | [member] => some (some member.2)
  | _ => none

end Json

end NominalTypes
