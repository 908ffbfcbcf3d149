import CircuitGrading.Assignment
import Mathlib.Algebra.Group.Nat.Defs
import Mathlib.Logic.Function.Basic

/-!
# Updates of assignments

An assignment is made from the empty one by updates in turn. The same updates can be made to a
partial map from letters to truth values, where each of them writes values at letters and a later
value replaces an earlier one. The map is what an assignment is meant to be; nothing is packed or
stored twice there.
-/

namespace CircuitGrading

/-- A change of an assignment. -/
inductive Update where
  /-- Give a letter a value. -/
  | assign (letter : Letter) (value : Bool)
  /-- Take the value of a letter away. -/
  | unassign (letter : Letter)
  /-- Load a number over letters; a number has binary digits for sixty-four of them. -/
  | load (order : List Letter) (fits : order.length ≤ 64) (number : UInt64)
  /-- Start again and give letters their values in turn. -/
  | replace (values : List (Letter × Bool))

namespace Update

/-- The letters of a list in turn with the binary digits of a number: the last letter has the lowest
digit and the first letter the highest one of as many digits as there are letters. -/
def digits (order : List Letter) (number : UInt64) : List (Letter × Bool) :=
  order.zipIdx.map fun (letter, place) =>
    (letter, decide (number.toNat / 2 ^ (order.length - 1 - place) % 2 = 1))

/-- The partial map after values are written at letters in turn. -/
def writeAll (map : Letter → Option Bool) (values : List (Letter × Bool)) : Letter → Option Bool :=
  values.foldl (fun map value => Function.update map value.1 (some value.2)) map

/-- The partial map after an update. -/
def onMap (map : Letter → Option Bool) : Update → Letter → Option Bool
  | assign letter value => Function.update map letter (some value)
  | unassign letter => Function.update map letter none
  | load order _ number => writeAll map (digits order number)
  | replace values => writeAll (fun _ => none) values

/-- The partial map that updates make of the map without values. -/
def mapOf (updates : List Update) : Letter → Option Bool := updates.foldl onMap fun _ => none

end Update

namespace Assignment

/-- The assignment after an update. -/
def after (assignment : Assignment) : Update → Assignment
  | .assign letter value => assignment.assign letter value
  | .unassign letter => assignment.unassign letter
  | .load order _ number => assignment.loadNumber order number
  | .replace values => ofList values

/-- The assignment that updates make of the empty one. -/
def reached (updates : List Update) : Assignment := updates.foldl after empty

end Assignment

end CircuitGrading
