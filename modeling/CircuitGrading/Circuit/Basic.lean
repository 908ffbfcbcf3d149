import CircuitGrading.Gate
import CircuitGrading.LetterSet

/-!
# Circuits

A circuit is a tree of gates whose leaves are input letters. `leaves` lists the leaves from left
to right; the set of letters of a circuit is the set of its leaves (`mem_letters`).
-/

namespace CircuitGrading

/-- A Boolean circuit in the form of a tree. -/
inductive Circuit where
  /-- The value of an input. -/
  | input (letter : Letter)
  /-- The negation of a circuit. -/
  | not (child : Circuit)
  /-- A binary gate over two circuits. -/
  | binary (gate : BinaryGate) (left right : Circuit)
  deriving DecidableEq

namespace Circuit

/-- The gate at the root; a single input has none. -/
def head? : Circuit → Option Gate
  | input _ => none
  | not _ => some .not
  | binary gate _ _ => some (.binary gate)

/-- The number of gates. -/
def size : Circuit → Nat
  | input _ => 0
  | not child => 1 + child.size
  | binary _ left right => 1 + left.size + right.size

/-- The largest number of gates from the root to an input. -/
def depth : Circuit → Nat
  | input _ => 0
  | not child => 1 + child.depth
  | binary _ left right => 1 + max left.depth right.depth

/-- Whether every binary gate is a conjunction or a disjunction. -/
def isElementary : Circuit → Bool
  | input _ => true
  | not child => child.isElementary
  | binary gate left right => gate.isElementary && left.isElementary && right.isElementary

/-- The letters at the leaves, from left to right. -/
def leaves : Circuit → List Letter
  | input letter => [letter]
  | not child => child.leaves
  | binary _ left right => left.leaves ++ right.leaves

/-- Add the letters of the circuit to a set. -/
def addLetters : Circuit → LetterSet → LetterSet
  | input letter, set => set.insert letter
  | not child, set => child.addLetters set
  | binary _ left right, set => right.addLetters (left.addLetters set)

/-- The letters that the circuit reads. -/
def letters (circuit : Circuit) : LetterSet := circuit.addLetters LetterSet.empty

/-- The number of different letters that the circuit reads. -/
def letterCount (circuit : Circuit) : Nat := circuit.letters.size

/-- Adding the letters of a circuit is adding its leaves from left to right. -/
theorem addLetters_eq (circuit : Circuit) (set : LetterSet) :
    circuit.addLetters set = set.insertAll circuit.leaves := by
  induction circuit generalizing set with
  | input letter => rfl
  | not child ih => exact ih set
  | binary gate left right leftIH rightIH =>
    simp [addLetters, leaves, leftIH, rightIH, LetterSet.insertAll, List.foldl_append]

/-- The letters of a circuit are those at its leaves. -/
@[simp] theorem mem_letters {circuit : Circuit} {letter : Letter} :
    letter ∈ circuit.letters ↔ letter ∈ circuit.leaves := by
  simp [letters, addLetters_eq]

/-- A circuit has one leaf at least. -/
theorem leaves_ne_nil (circuit : Circuit) : circuit.leaves ≠ [] := by
  induction circuit with
  | input letter => simp [leaves]
  | not child ih => exact ih
  | binary gate left right leftIH rightIH => simp [leaves, leftIH]

end Circuit

end CircuitGrading
