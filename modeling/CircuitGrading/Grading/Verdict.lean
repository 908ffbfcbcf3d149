/-!
# Verdicts

A verdict sums up a grading. Each verdict has a short code, and a code belongs to one verdict at
most.
-/

namespace CircuitGrading

/-- The result of a grading in one word. -/
inductive Verdict where
  /-- Every test case is correct. -/
  | accepted
  /-- The submission gave a wrong output. -/
  | wrongAnswer
  /-- The submission reads a letter that the reference does not read. -/
  | runtimeError
  /-- The reference has no value on a test case. -/
  | referenceRuntimeError
  /-- The submission is not an expression. -/
  | compileFailure
  /-- The reference is not an expression. -/
  | referenceCompileFailure
  deriving DecidableEq

/-- A code that belongs to no verdict. -/
structure UnknownCode where
  /-- The code. -/
  code : String
  deriving DecidableEq

/-- The wording of the error. -/
def UnknownCode.message (error : UnknownCode) : String :=
  "Unknown verdict '" ++ error.code ++ "'"

namespace Verdict

/-- All verdicts in their customary order. -/
def all : List Verdict :=
  [accepted, wrongAnswer, runtimeError, referenceRuntimeError, compileFailure,
    referenceCompileFailure]

/-- The short code of the verdict. -/
def code : Verdict → String
  | accepted => "AC"
  | wrongAnswer => "WA"
  | runtimeError => "RTE"
  | referenceRuntimeError => "SOL_RTE"
  | compileFailure => "CF"
  | referenceCompileFailure => "SOL_CF"

/-- The verdict with a code. -/
def ofCode (code : String) : Except UnknownCode Verdict :=
  match all.find? fun verdict => verdict.code == code with
  | some verdict => .ok verdict
  | none => .error ⟨code⟩

/-- The code of a verdict is read back as the verdict. -/
@[simp] theorem ofCode_code (verdict : Verdict) : ofCode verdict.code = .ok verdict := by
  cases verdict <;> rfl

end Verdict

end CircuitGrading
