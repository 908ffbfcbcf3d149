import CircuitGrading.Grading.Clock
import CircuitGrading.Grading.Run

/-!
# Gradings under limits

A grader refuses references with too many letters and stops runs that are cancelled or take too
long. The number of letters is looked at first. Then the deadline is set: a time limit that leads
beyond the last instant of the clock makes the grading panic. The cancel flag and then the deadline
are looked at before the first case and again before every 256th case. A grading that is refused has
no report.
-/

namespace CircuitGrading

/-- What a grader allows. -/
structure Limits where
  /-- The largest number of letters of a reference. -/
  maxLetters : Nat
  /-- The longest duration of a run, if there is a limit. -/
  timeBudget : Option Duration
  deriving DecidableEq

namespace Limits

/-- Twenty letters and no time limit. -/
def standard : Limits := ⟨20, none⟩

/-- Every reference and no time limit. -/
def unrestricted : Limits := ⟨Letter.count, none⟩

/-- Twelve letters and one second. -/
def strict : Limits := ⟨12, some (.ofSeconds 1)⟩

/-- The same limits with a time limit. -/
def within (limits : Limits) (budget : Duration) : Limits :=
  { limits with timeBudget := some budget }

/-- The deadline of a run that starts at the instant, if there is one; nothing if it would have to
be later than all instants. -/
def deadline? (limits : Limits) (start : Instant) : Option (Option Instant) :=
  match limits.timeBudget with
  | none => some none
  | some budget => (start.add? budget).map some

end Limits

/-- Why a grading is refused. -/
inductive Refusal where
  /-- The reference reads more letters than allowed. -/
  | tooManyLetters (found limit : Nat)
  /-- The time was over before all cases were done. -/
  | outOfTime (completed total : Nat)
  /-- The cancel flag was set before all cases were done. -/
  | cancelled (completed total : Nat)
  deriving DecidableEq

/-- The wording of the error. -/
def Refusal.message : Refusal → String
  | .tooManyLetters found limit =>
    "The reference uses " ++ Text.decimalString found ++ " inputs, the limit is " ++
      Text.decimalString limit
  | .outOfTime completed total =>
    "Time budget exceeded after " ++ Text.decimalString completed ++ " of " ++
      Text.decimalString total ++ " test cases"
  | .cancelled completed total =>
    "Grading cancelled after " ++ Text.decimalString completed ++ " of " ++
      Text.decimalString total ++ " test cases"

/-- How a call of a grader ends. -/
inductive Answer where
  /-- The call returns a report or a refusal. -/
  | returned (result : Except Refusal Report)
  /-- The call panics and returns nothing. -/
  | panicked

/-- Limits, and a cancel flag unless the grader is made without one. -/
structure Grader where
  /-- The limits of each grading. -/
  limits : Limits := Limits.standard
  /-- The present value of the cancel flag, if there is a flag. -/
  cancelFlag : Option Bool := none
  deriving DecidableEq

namespace Grader

/-- The number of cases from one look at the cancel flag and the time to the next. -/
def checkPeriod : Nat := 256

/-- The grader after a value is stored in its cancel flag; without a flag nothing changes. -/
def setCancel (grader : Grader) (value : Bool) : Grader :=
  { grader with cancelFlag := grader.cancelFlag.map fun _ => value }

/-- Look at the cancel flag and the deadline before a case, when it is due; `looks` tells what the
clock shows at the look before each case. -/
def check (grader : Grader) (deadline : Option Instant) (looks : Nat → Instant)
    (total completed : Nat) : Except Refusal Unit :=
  if completed % checkPeriod ≠ 0 then .ok ()
  else if grader.cancelFlag = some true then .error (.cancelled completed total)
  else
    match deadline with
    | none => .ok ()
    | some deadline =>
      if deadline ≤ looks completed then .error (.outOfTime completed total) else .ok ()

/-- Grade a submission against a reference under the limits. -/
def grade (grader : Grader) (clock : Clock) (submission reference : Circuit) : Answer :=
  if grader.limits.maxLetters < reference.letterCount then
    .returned (.error (.tooManyLetters reference.letterCount grader.limits.maxLetters))
  else
    match grader.limits.deadline? clock.start with
    | none => .panicked
    | some deadline =>
      .returned (Grading.run (grader.check deadline clock.looks (Grading.caseCount reference))
        submission reference)

end Grader

end CircuitGrading
