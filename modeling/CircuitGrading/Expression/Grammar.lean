import CircuitGrading.Circuit.Written

/-!
# The grammar of expressions

`Spells text circuit` says that a text is an expression of a circuit: a capital letter, or the name
of a gate with its arguments in brackets. One comma may stand before the closing bracket of a
call; no other variation is allowed. The written form of a circuit spells it
(`spells_expression`).
-/

namespace CircuitGrading

/-- How a call may end: with its closing bracket, or with a comma before it. -/
def EndsCall (ending : Text) : Prop := ending = [')'] ∨ ending = [',', ')']

/-- The text is an expression of the circuit. -/
inductive Spells : Text → Circuit → Prop where
  /-- A letter spells the input of its name. -/
  | input (letter : Letter) : Spells [letter.char] (.input letter)
  /-- A call of the negation spells the negation of what its argument spells. -/
  | not {operand : Text} {child : Circuit} {ending : Text} :
      Spells operand child → EndsCall ending →
      Spells (Gate.not.name.toList ++ '(' :: (operand ++ ending)) (.not child)
  /-- A call of a binary gate spells the gate over what its two arguments spell. -/
  | binary (gate : BinaryGate) {first second : Text} {left right : Circuit} {ending : Text} :
      Spells first left → Spells second right → EndsCall ending →
      Spells (gate.name.toList ++ '(' :: (first ++ ',' :: (second ++ ending)))
        (.binary gate left right)

/-- The written form of a circuit spells the circuit. -/
theorem spells_expression (circuit : Circuit) : Spells circuit.expression circuit := by
  induction circuit with
  | input letter => exact .input letter
  | not child ih => exact .not ih (Or.inl rfl)
  | binary gate left right leftIH rightIH => exact .binary gate leftIH rightIH (Or.inl rfl)

end CircuitGrading
