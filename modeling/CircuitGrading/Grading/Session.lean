import CircuitGrading.Grading.Grader

/-!
# Sessions

A grader serves requests one after another: it grades, or a value is stored in its cancel flag
between two gradings. Storing a value is all that changes a grader, also where a grading panics and
the panic is caught.
-/

namespace CircuitGrading

/-- A use of a grader. -/
inductive Request where
  /-- Grade a submission against a reference, on the clock of the run. -/
  | grade (clock : Clock) (submission reference : Circuit)
  /-- Store a value in the cancel flag. -/
  | setCancel (value : Bool)

/-- The value that a request stores in the cancel flag. -/
def Request.stored? : Request → Option Bool
  | grade _ _ _ => none
  | setCancel value => some value

namespace Grader

/-- The grader after a request. -/
def after (grader : Grader) : Request → Grader
  | .grade _ _ _ => grader
  | .setCancel value => grader.setCancel value

/-- The answer to a request; storing a value has none. -/
def answer? (grader : Grader) : Request → Option Answer
  | .grade clock submission reference => some (grader.grade clock submission reference)
  | .setCancel _ => none

/-- The answers to requests in turn. -/
def serve (grader : Grader) : List Request → List (Option Answer)
  | [] => []
  | request :: rest => grader.answer? request :: (grader.after request).serve rest

/-- The value of the cancel flag after requests: the last one stored, or the one before the
requests; a grader without a flag still has none. -/
def flagAfter (grader : Grader) (requests : List Request) : Option Bool :=
  grader.cancelFlag.map fun initial => (requests.filterMap Request.stored?).getLast?.getD initial

end Grader

end CircuitGrading
