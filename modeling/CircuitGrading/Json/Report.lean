import CircuitGrading.Grading.Report
import CircuitGrading.Json.Value

/-!
# Reports as JSON values

A report is written as an object of its four fields. It is read from an object that has each of the
four fields once, in any order and among any others, or from the list of their four values.
-/

namespace CircuitGrading

namespace Verdict

/-- The name of the variant for the verdict. -/
def variantName : Verdict → String
  | accepted => "Accepted"
  | wrongAnswer => "WrongAnswer"
  | runtimeError => "RuntimeError"
  | referenceRuntimeError => "SolutionRuntimeError"
  | compileFailure => "CompileFailure"
  | referenceCompileFailure => "SolutionCompileFailure"

/-- A verdict is a variant without content. -/
def toJson (verdict : Verdict) : JsonValue := .string verdict.variantName

/-- Read a verdict. -/
def ofJson? (value : JsonValue) : Option Verdict :=
  match value.variantName? with
  | some name => all.find? fun verdict => verdict.variantName == name
  | none => none

/-- A verdict is read back. -/
@[simp] theorem ofJson?_toJson (verdict : Verdict) : ofJson? verdict.toJson = some verdict := by
  cases verdict <;> rfl

/-- A verdict is read from the name of its variant, in either way to write it. -/
theorem ofJson?_eq_some_iff {value : JsonValue} {verdict : Verdict} :
    ofJson? value = some verdict ↔
      value = .string verdict.variantName ∨ value = .object [(verdict.variantName, .null)] := by
  have found :
      (all.find? fun other => other.variantName == verdict.variantName) = some verdict := by
    cases verdict <;> rfl
  exact JsonValue.find?_variantName?_eq_some_iff found

end Verdict

namespace Report

/-- A log is a list of strings. -/
def logToJson (log : List String) : JsonValue := .list (log.map .string)

/-- Read a log. -/
def logOfJson? : JsonValue → Option (List String)
  | .list items => items.mapM JsonValue.string?
  | _ => none

/-- A report as an object. -/
def toJson (report : Report) : JsonValue :=
  .object [("correct_count", .ofCount report.correct), ("wrong_count", .ofCount report.wrong),
    ("log", logToJson report.log), ("verdict", report.verdict.toJson)]

/-- Read a report from the values of its four fields. -/
def ofFields? (correct wrong log verdict : JsonValue) : Option Report :=
  match correct.count?, wrong.count?, logOfJson? log, Verdict.ofJson? verdict with
  | some correct, some wrong, some log, some verdict => some ⟨correct, wrong, log, verdict⟩
  | _, _, _, _ => none

/-- Read a report. -/
def ofJson? : JsonValue → Option Report
  | .list [correct, wrong, log, verdict] => ofFields? correct wrong log verdict
  | .object fields =>
    match JsonValue.field? fields "correct_count", JsonValue.field? fields "wrong_count",
        JsonValue.field? fields "log", JsonValue.field? fields "verdict" with
    | some correct, some wrong, some log, some verdict => ofFields? correct wrong log verdict
    | _, _, _, _ => none
  | _ => none

/-- A log is read back. -/
@[simp] theorem logOfJson?_logToJson (log : List String) :
    logOfJson? (logToJson log) = some log := by
  induction log with
  | nil => rfl
  | cons line rest ih =>
    simp only [logToJson, logOfJson?] at ih
    simp [logToJson, logOfJson?, List.mapM_cons, JsonValue.string?, ih]

/-- Only the list of its entries is read as a log. -/
theorem logOfJson?_eq_some_iff {value : JsonValue} {log : List String} :
    logOfJson? value = some log ↔ value = logToJson log := by
  constructor
  · intro done
    unfold logOfJson? at done
    split at done
    · rename_i items
      rw [logToJson]
      congr 1
      induction items generalizing log with
      | nil => simpa [eq_comm] using done
      | cons item rest ih =>
        rw [List.mapM_cons] at done
        obtain ⟨entry, first, later⟩ := Option.bind_eq_some_iff.mp done
        obtain ⟨entries, read, whole⟩ := Option.bind_eq_some_iff.mp later
        obtain rfl := Option.some.inj whole
        rw [JsonValue.string?_eq_some_iff.mp first, ih read, List.map_cons]
    · contradiction
  · rintro rfl
    exact logOfJson?_logToJson log

/-- A report is read back. -/
@[simp] theorem ofJson?_toJson (report : Report) : ofJson? report.toJson = some report := by
  simp [toJson, ofJson?, JsonValue.field?, ofFields?]

end Report

end CircuitGrading
