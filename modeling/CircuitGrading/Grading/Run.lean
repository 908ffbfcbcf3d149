import CircuitGrading.Grading.Outcome
import CircuitGrading.Grading.Report

/-!
# Gradings

A submission is graded on every assignment of the letters of the reference. With `k` letters the
test cases are the numbers below `2 ^ k`; the binary digits of a number are the values of the
letters in alphabetical order, the first letter having the most significant digit. One assignment
is loaded with each number in turn, and a tally is kept of the outcomes. Before each case a guard
may stop the run; a run that is stopped has no report.
-/

namespace CircuitGrading

/-- The counts, the log and the verdict of the cases that are done. -/
structure Tally where
  /-- The number of correct test cases. -/
  correct : UInt64
  /-- The number of wrong test cases. -/
  wrong : UInt64
  /-- The lines of the log, the last one first. -/
  reversedLog : List String
  /-- The verdict so far. -/
  verdict : Verdict

namespace Tally

/-- No case is done. -/
def start : Tally := ⟨0, 0, [], .accepted⟩

/-- Count the outcome of a case, log its line and let it decide the verdict; a correct case leaves
the verdict as it is. -/
def record (tally : Tally) (width number : Nat) (outcome : Outcome) : Tally :=
  let log := outcome.line width number :: tally.reversedLog
  match outcome with
  | .answered submitted expected =>
    if submitted = expected then ⟨tally.correct + 1, tally.wrong, log, tally.verdict⟩
    else ⟨tally.correct, tally.wrong + 1, log, .wrongAnswer⟩
  | .submissionFailed _ => ⟨tally.correct, tally.wrong, log, .runtimeError⟩
  | .referenceFailed _ => ⟨tally.correct, tally.wrong, log, .referenceRuntimeError⟩

/-- The report on the cases that are done. -/
def report (tally : Tally) : Report :=
  ⟨tally.correct, tally.wrong, tally.reversedLog.reverse, tally.verdict⟩

end Tally

namespace Grading

variable {ε : Type}

/-- Grade `remaining` cases from case `number` on, loading their numbers over `order` into the
assignment that the case before has left. -/
def runFrom (guard : Nat → Except ε Unit) (submission reference : Circuit) (order : List Letter) :
    (remaining number : Nat) → Assignment → Tally → Except ε Report
  | 0, _, _, tally => .ok tally.report
  | remaining + 1, number, assignment, tally =>
    match guard number with
    | .error error => .error error
    | .ok () =>
      let assignment := assignment.loadNumber order (UInt64.ofNat number)
      let outcome := Outcome.ofCase submission reference assignment
      let tally := tally.record order.length number outcome
      if outcome.isFinal then .ok tally.report
      else runFrom guard submission reference order remaining (number + 1) assignment tally

/-- The number of test cases of a reference. -/
def caseCount (reference : Circuit) : Nat := Nat.pow 2 reference.letterCount

/-- Grade a submission on all cases, unless the guard stops the run. -/
def run (guard : Nat → Except ε Unit) (submission reference : Circuit) : Except ε Report :=
  runFrom guard submission reference reference.letters.toList (caseCount reference) 0
    Assignment.empty Tally.start

end Grading

/-- Grade a submission against a reference. -/
def grade (submission reference : Circuit) : Report :=
  match Grading.run (fun _ => (.ok () : Except Empty Unit)) submission reference with
  | .ok report => report
  | .error impossible => impossible.elim

end CircuitGrading
