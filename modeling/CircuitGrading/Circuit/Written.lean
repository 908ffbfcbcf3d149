import CircuitGrading.Circuit.Basic

/-!
# The written form of a circuit

An input is written as its letter, and a gate as its name followed by its operands in brackets,
with a comma between two operands.
-/

namespace CircuitGrading.Circuit

/-- The expression of a circuit. -/
def expression : Circuit → Text
  | input letter => [letter.char]
  | not child => Gate.not.name.toList ++ '(' :: (child.expression ++ [')'])
  | binary gate left right =>
    gate.name.toList ++ '(' :: (left.expression ++ ',' :: (right.expression ++ [')']))

/-- An expression is never empty. -/
theorem expression_ne_nil (circuit : Circuit) : circuit.expression ≠ [] := by
  cases circuit <;> simp [expression]

end CircuitGrading.Circuit
