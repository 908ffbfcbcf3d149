import CircuitGrading.Circuit.Basic

/-!
# Circuits up to the order of operands

Two circuits are commuted when one is made from the other by exchanging the operands of any number
of binary gates, at any depths. This is an equivalence relation.
-/

namespace CircuitGrading.Circuit

/-- The circuits differ in the order of operands only. -/
inductive Commuted : Circuit → Circuit → Prop where
  /-- Inputs have no operands. -/
  | input (letter : Letter) : Commuted (input letter) (input letter)
  /-- Negations of commuted circuits are commuted. -/
  | not {first second : Circuit} : Commuted first second → Commuted (not first) (not second)
  /-- The operands are commuted in the same order. -/
  | straight (gate : BinaryGate) {left right left' right' : Circuit} :
      Commuted left left' → Commuted right right' →
      Commuted (binary gate left right) (binary gate left' right')
  /-- The operands are commuted in the other order. -/
  | crossed (gate : BinaryGate) {left right left' right' : Circuit} :
      Commuted left left' → Commuted right right' →
      Commuted (binary gate left right) (binary gate right' left')

namespace Commuted

/-- Every circuit is commuted with itself. -/
theorem refl (circuit : Circuit) : Commuted circuit circuit := by
  induction circuit with
  | input letter => exact .input letter
  | not child ih => exact .not ih
  | binary gate left right leftIH rightIH => exact .straight gate leftIH rightIH

/-- The relation is symmetric. -/
theorem symm {first second : Circuit} (commuted : Commuted first second) :
    Commuted second first := by
  induction commuted with
  | input letter => exact .input letter
  | not _ ih => exact .not ih
  | straight gate _ _ leftIH rightIH => exact .straight gate leftIH rightIH
  | crossed gate _ _ leftIH rightIH => exact .crossed gate rightIH leftIH

/-- The relation is transitive. -/
theorem trans {first second third : Circuit} (before : Commuted first second)
    (after : Commuted second third) : Commuted first third := by
  induction before generalizing third with
  | input letter => exact after
  | not _ ih =>
    cases after with
    | not later => exact .not (ih later)
  | straight gate _ _ leftIH rightIH =>
    cases after with
    | straight _ left right => exact .straight gate (leftIH left) (rightIH right)
    | crossed _ left right => exact .crossed gate (leftIH left) (rightIH right)
  | crossed gate _ _ leftIH rightIH =>
    cases after with
    | straight _ left right => exact .crossed gate (leftIH right) (rightIH left)
    | crossed _ left right => exact .straight gate (leftIH right) (rightIH left)

end Commuted

end CircuitGrading.Circuit
