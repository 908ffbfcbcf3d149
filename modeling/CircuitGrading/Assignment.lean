import CircuitGrading.LetterSet

/-!
# Assignments of truth values to letters

An assignment gives some of the letters a truth value. It is stored as two sets, the letters that
have a value and the letters whose value is true, and its view is `value?`. A number can be loaded
over a list of letters: the first letter takes the most significant of as many bits as there are
letters, so that counting upwards enumerates the values of the letters in lexicographic order.
-/

namespace CircuitGrading

/-- A partial map from letters to truth values. -/
structure Assignment where
  /-- The letters that have a value. -/
  assigned : LetterSet
  /-- The letters whose value is true. -/
  high : LetterSet
  deriving DecidableEq

namespace Assignment

/-- The assignment without values. -/
def empty : Assignment := ⟨LetterSet.empty, LetterSet.empty⟩

/-- Give a letter a value, in place of any value that it had. -/
def assign (assignment : Assignment) (letter : Letter) (value : Bool) : Assignment where
  assigned := assignment.assigned.insert letter
  high := if value then assignment.high.insert letter else assignment.high.erase letter

/-- Take the value of a letter away. -/
def unassign (assignment : Assignment) (letter : Letter) : Assignment where
  assigned := assignment.assigned.erase letter
  high := assignment.high.erase letter

/-- The value of a letter, if it has one. -/
def value? (assignment : Assignment) (letter : Letter) : Option Bool :=
  if assignment.assigned.contains letter then some (assignment.high.contains letter) else none

/-- Give letters their values in turn; a later value replaces an earlier one. -/
def ofList (values : List (Letter × Bool)) : Assignment :=
  values.foldl (fun assignment value => assignment.assign value.1 value.2) empty

/-- Give the letters of a list, in turn, the lowest bits of a number: the last letter takes bit 0
and each letter before it the next higher bit. -/
def loadNumber (assignment : Assignment) : List Letter → UInt64 → Assignment
  | [], _ => assignment
  | letter :: rest, number =>
    (assignment.assign letter (number.toNat.testBit rest.length)).loadNumber rest number

/-- The letters that have a value, in alphabetical order and each followed by its value as a
digit, with commas between them. -/
def text (assignment : Assignment) : Text :=
  Text.commaSeparated (assignment.assigned.toList.map fun letter =>
    [letter.char, '=', if assignment.high.contains letter then '1' else '0'])

/-- Nothing is assigned at first. -/
@[simp] theorem value?_empty (letter : Letter) : empty.value? letter = none := by
  simp [value?, empty]

/-- After an assignment its letter has its value and every other letter is as before. -/
theorem value?_assign (assignment : Assignment) (assigned letter : Letter) (value : Bool) :
    (assignment.assign assigned value).value? letter =
      if letter = assigned then some value else assignment.value? letter := by
  by_cases same : letter = assigned
  · cases value <;> simp [value?, assign, same]
  · cases value <;> simp [value?, assign, same]

/-- Taking a value away leaves every other letter as before. -/
theorem value?_unassign (assignment : Assignment) (removed letter : Letter) :
    (assignment.unassign removed).value? letter =
      if letter = removed then none else assignment.value? letter := by
  by_cases same : letter = removed
  · simp [value?, unassign, same]
  · simp [value?, unassign, same]

end Assignment

end CircuitGrading
