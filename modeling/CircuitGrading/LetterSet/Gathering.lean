import CircuitGrading.Circuit.Basic
import Mathlib.Data.Finset.Basic

/-!
# Gathering letters

A set of letters is gathered in steps: letters are added one at a time, as lists or as the letters
of a circuit, or the set is made anew from a list. The same steps can be taken with a finite set in
the mathematical sense, which has no order and no storage.
-/

namespace CircuitGrading

/-- A step in gathering a set of letters. -/
inductive Gathering where
  /-- Add a letter. -/
  | insert (letter : Letter)
  /-- Add letters in turn. -/
  | extend (letters : List Letter)
  /-- Add the letters of a circuit. -/
  | collect (circuit : Circuit)
  /-- Start again with the letters of a list. -/
  | renew (letters : List Letter)

namespace Gathering

/-- The letters gathered after a step. -/
def onMembers (members : Finset Letter) : Gathering → Finset Letter
  | insert letter => Insert.insert letter members
  | extend letters => members ∪ letters.toFinset
  | collect circuit => members ∪ circuit.leaves.toFinset
  | renew letters => letters.toFinset

/-- The letters that are gathered in steps, from none. -/
def membersOf (steps : List Gathering) : Finset Letter := steps.foldl onMembers ∅

end Gathering

namespace LetterSet

/-- The set after a step. -/
def after (set : LetterSet) : Gathering → LetterSet
  | .insert letter => set.insert letter
  | .extend letters => set.insertAll letters
  | .collect circuit => circuit.addLetters set
  | .renew letters => ofList letters

/-- The set that is gathered in steps, from the empty one. -/
def gathered (steps : List Gathering) : LetterSet := steps.foldl after empty

end LetterSet

end CircuitGrading
