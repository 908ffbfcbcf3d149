import CircuitGrading.Expression.Reading
import CircuitGrading.Grading.Run

/-!
# Grading raw texts

Raw texts are read before they are graded, the submission first. A text that is no expression
is reported as a compile failure, so every pair of texts has a report.
-/

namespace CircuitGrading

/-- Read and grade a submission against a reference. -/
def gradeTexts (submission reference : Text) : Report :=
  match Circuit.read submission with
  | .error error => .ofSyntaxError .compileFailure error
  | .ok submission =>
    match Circuit.read reference with
    | .error error => .ofSyntaxError .referenceCompileFailure error
    | .ok reference => grade submission reference

end CircuitGrading
