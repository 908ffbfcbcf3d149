import CircuitGrading.Assignment
import CircuitGrading.Circuit.Basic

/-!
# Evaluation

A circuit has a truth value under every valuation of the letters (`denote`). Under a partial
assignment it is evaluated only if each of its leaves has a value: both operands of a gate are
evaluated, the left one first, also where one of them settles the output.
-/

namespace CircuitGrading

/-- Why a circuit has no value under an assignment. -/
inductive EvalError where
  /-- The letter has no value. -/
  | unassigned (letter : Letter)
  deriving DecidableEq

/-- The wording of the error. -/
def EvalError.message : EvalError → String
  | .unassigned letter =>
    "Input " ++ String.ofList [letter.char] ++ " doesn't exist amongst values"

namespace Circuit

/-- The truth value of the circuit under a valuation of all letters. -/
def denote (valuation : Letter → Bool) : Circuit → Bool
  | input letter => valuation letter
  | not child => !child.denote valuation
  | binary gate left right => gate.connective (left.denote valuation) (right.denote valuation)

/-- The value of the circuit under an assignment; the first leaf without a value is refused. -/
def eval (assignment : Assignment) : Circuit → Except EvalError Bool
  | input letter =>
    match assignment.value? letter with
    | some value => .ok value
    | none => .error (.unassigned letter)
  | not child =>
    match child.eval assignment with
    | .ok value => .ok !value
    | .error error => .error error
  | binary gate left right =>
    match left.eval assignment with
    | .error error => .error error
    | .ok leftValue =>
      match right.eval assignment with
      | .error error => .error error
      | .ok rightValue => .ok (gate.apply leftValue rightValue)

end Circuit

end CircuitGrading
