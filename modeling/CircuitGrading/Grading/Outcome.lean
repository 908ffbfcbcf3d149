import CircuitGrading.Circuit.Evaluation

/-!
# Outcomes of test cases

On each test case the reference is evaluated first and the submission second. The outcome keeps
the values or the error, and its line in the log is written from it.
-/

namespace CircuitGrading

/-- What happened on one test case. -/
inductive Outcome where
  /-- Both circuits have a value. -/
  | answered (submitted expected : Bool)
  /-- The submission has no value. -/
  | submissionFailed (error : EvalError)
  /-- The reference has no value. -/
  | referenceFailed (error : EvalError)
  deriving DecidableEq

namespace Outcome

/-- The outcome of a test case. -/
def ofCase (submission reference : Circuit) (assignment : Assignment) : Outcome :=
  match reference.eval assignment with
  | .error error => .referenceFailed error
  | .ok expected =>
    match submission.eval assignment with
    | .error error => .submissionFailed error
    | .ok submitted => .answered submitted expected

/-- Whether the grading stops after the outcome. -/
def isFinal : Outcome → Bool
  | referenceFailed _ => true
  | _ => false

/-- A truth value as a digit. -/
def digit (value : Bool) : String := if value then "1" else "0"

/-- The line of the log for the outcome of case `number`, counted from 0, over `width` letters. -/
def line (width number : Nat) : Outcome → String
  | answered submitted expected =>
    (if submitted = expected then "Correct" else "Wrong") ++ " answer on test case " ++
      Text.decimalString (number + 1) ++ " (" ++ String.ofList (Text.binary width number) ++
      ")! Contestant: " ++ digit submitted ++ ", Judge: " ++ digit expected ++ "."
  | submissionFailed error =>
    "Submission evaluation failed on test case " ++ Text.decimalString (number + 1) ++
      ". Error: " ++ error.message ++ "."
  | referenceFailed error =>
    "Solution evaluation failed on test case " ++ Text.decimalString (number + 1) ++
      ". Error: " ++ error.message ++ "."

end Outcome

end CircuitGrading
