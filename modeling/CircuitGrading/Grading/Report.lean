import CircuitGrading.Expression.Error
import CircuitGrading.Grading.Verdict

/-!
# Reports

A report holds what a grading found: how many test cases were correct and wrong, a log with one
entry for each test case, and the verdict.
-/

namespace CircuitGrading

/-- The findings of a grading. -/
structure Report where
  /-- The number of correct test cases. -/
  correct : UInt64
  /-- The number of wrong test cases. -/
  wrong : UInt64
  /-- The entries of the log, in order. -/
  log : List String
  /-- The verdict. -/
  verdict : Verdict
  deriving DecidableEq

namespace Report

/-- The report on an expression that cannot be read; its log is the error. -/
def ofSyntaxError (verdict : Verdict) (error : SyntaxError) : Report :=
  ⟨0, 0, [error.message], verdict⟩

/-- Whether the submission is accepted. -/
def passed (report : Report) : Bool := report.verdict == .accepted

/-- The number of test cases on which both circuits have a value. -/
def compared (report : Report) : UInt64 := report.correct + report.wrong

/-- The log as one text, each entry followed by a line feed. -/
def transcript (report : Report) : String := String.join (report.log.map fun entry => entry ++ "\n")

/-- The verdict and the counts in one line. -/
def summary (report : Report) : String :=
  report.verdict.code ++ " (" ++ Text.decimalString report.correct.toNat ++ " correct, " ++
    Text.decimalString report.wrong.toNat ++ " wrong)"

end Report

end CircuitGrading
