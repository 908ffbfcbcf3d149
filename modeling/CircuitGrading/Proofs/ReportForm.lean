import CircuitGrading.Json.Fields
import CircuitGrading.Json.Report
import Mathlib.Algebra.Group.Nat.Defs

/-!
# The JSON form of reports is faithful

A report is read from the values that hold its four fields and from no others: from objects,
whatever the order of the fields and whatever further fields they have, and from the list of the
four values (`Report.ofJson?_eq_some_iff`). Only the verdict is spelled in two ways; a count or a
log has one value. So a value with anything but a number of 64 bits in the place of a count is no
report.
-/

namespace CircuitGrading

open JsonValue

/-- The two ways to write a verdict: its name, or an object that gives the name the value `null`. -/
def Verdict.WrittenAs (verdict : Verdict) (value : JsonValue) : Prop :=
  value = .string verdict.variantName ∨ value = .object [(verdict.variantName, .null)]

namespace Report

/-- The four fields of a report, given the value for the verdict. -/
def entries (report : Report) (verdict : JsonValue) : List (String × JsonValue) :=
  [("correct_count", .ofCount report.correct), ("wrong_count", .ofCount report.wrong),
    ("log", logToJson report.log), ("verdict", verdict)]

/-- The ways to write a report. -/
inductive WrittenAs (report : Report) : JsonValue → Prop where
  /-- An object holds the four fields. -/
  | object {fields : List (String × JsonValue)} {verdict : JsonValue}
      (spelled : report.verdict.WrittenAs verdict) (holds : Holds fields (report.entries verdict)) :
      WrittenAs report (.object fields)
  /-- A list has the values of the four fields in order. -/
  | list {verdict : JsonValue} (spelled : report.verdict.WrittenAs verdict) :
      WrittenAs report (.list ((report.entries verdict).map Prod.snd))

/-- The places of the two counts: the first two items of a list, or fields of an object. -/
inductive CountIn (count : JsonValue) : JsonValue → Prop where
  /-- The first item is the number of correct test cases. -/
  | first (rest : List JsonValue) : CountIn count (.list (count :: rest))
  /-- The second item is the number of wrong test cases. -/
  | second (item : JsonValue) (rest : List JsonValue) :
      CountIn count (.list (item :: count :: rest))
  /-- Each of the numbers has a key. -/
  | field {fields : List (String × JsonValue)} {key : String}
      (known : key = "correct_count" ∨ key = "wrong_count") (member : (key, count) ∈ fields) :
      CountIn count (.object fields)

variable {report : Report} {value : JsonValue}

/-- The keys of the four fields are distinct. -/
theorem nodup_keys_entries (verdict : JsonValue) :
    ((report.entries verdict).map Prod.fst).Nodup := by
  show ["correct_count", "wrong_count", "log", "verdict"].Nodup
  decide

/-- Four values are read as a report exactly if each is read as what the report has in its place. -/
theorem ofFields?_eq_some_iff {correct wrong log verdict : JsonValue} :
    ofFields? correct wrong log verdict = some report ↔
      correct = .ofCount report.correct ∧ wrong = .ofCount report.wrong ∧
        log = logToJson report.log ∧ report.verdict.WrittenAs verdict := by
  constructor
  · intro done
    unfold ofFields? at done
    split at done
    · rename_i first second lines outcome counted counted' logged judged
      obtain rfl := Option.some.inj done
      exact ⟨count?_eq_some_iff.mp counted, count?_eq_some_iff.mp counted',
        logOfJson?_eq_some_iff.mp logged, Verdict.ofJson?_eq_some_iff.mp judged⟩
    · contradiction
  · rintro ⟨rfl, rfl, rfl, spelled⟩
    have judged : Verdict.ofJson? verdict = some report.verdict :=
      Verdict.ofJson?_eq_some_iff.mpr spelled
    simp only [ofFields?, count?_ofCount, logOfJson?_logToJson, judged]

/-- An object is read as a report exactly if it holds the four fields. -/
theorem ofJson?_object_eq_some_iff {fields : List (String × JsonValue)} :
    ofJson? (.object fields) = some report ↔
      ∃ verdict, report.verdict.WrittenAs verdict ∧ Holds fields (report.entries verdict) := by
  constructor
  · intro done
    unfold ofJson? at done
    dsimp only at done
    split at done
    · rename_i correct wrong log verdict foundCorrect foundWrong foundLog foundVerdict
      obtain ⟨rfl, rfl, rfl, spelled⟩ := ofFields?_eq_some_iff.mp done
      refine ⟨verdict, spelled, (holds_iff (nodup_keys_entries verdict)).mpr ?_⟩
      simp only [entries, List.forall_mem_cons]
      exact ⟨foundCorrect, foundWrong, foundLog, foundVerdict, List.forall_mem_nil _⟩
    · contradiction
  · rintro ⟨verdict, spelled, holds⟩
    have found := (holds_iff (nodup_keys_entries verdict)).mp holds
    simp only [entries, List.forall_mem_cons] at found
    obtain ⟨foundCorrect, foundWrong, foundLog, foundVerdict, -⟩ := found
    simp only [ofJson?, foundCorrect, foundWrong, foundLog, foundVerdict]
    exact ofFields?_eq_some_iff.mpr ⟨rfl, rfl, rfl, spelled⟩

/-- A value is read as a report exactly if it is one of the ways to write the report. -/
theorem ofJson?_eq_some_iff : ofJson? value = some report ↔ report.WrittenAs value := by
  constructor
  · intro done
    cases value with
    | object fields =>
      obtain ⟨verdict, spelled, holds⟩ := ofJson?_object_eq_some_iff.mp done
      exact .object spelled holds
    | list items =>
      unfold ofJson? at done
      split at done
      · rename_i correct wrong log verdict same
        obtain rfl := list.inj same
        obtain ⟨rfl, rfl, rfl, spelled⟩ := ofFields?_eq_some_iff.mp done
        exact .list spelled
      · contradiction
      · contradiction
    | _ => contradiction
  · intro written
    cases written with
    | object spelled holds => exact ofJson?_object_eq_some_iff.mpr ⟨_, spelled, holds⟩
    | list spelled => exact ofFields?_eq_some_iff.mpr ⟨rfl, rfl, rfl, spelled⟩

/-- In every way to write a report, a count is one of the counts of the report. -/
theorem WrittenAs.count_eq {count : JsonValue} (written : report.WrittenAs value)
    (place : CountIn count value) :
    count = .ofCount report.correct ∨ count = .ofCount report.wrong := by
  cases written with
  | list spelled =>
    cases place with
    | first rest => exact Or.inl rfl
    | second item rest => exact Or.inr rfl
  | @object fields verdict spelled holds =>
    have found := (holds_iff (nodup_keys_entries verdict)).mp holds
    cases place with
    | field known member =>
      rcases known with rfl | rfl
      · have correct := found ("correct_count", .ofCount report.correct) (by simp [entries])
        exact Or.inl (eq_of_mem_of_field? correct member)
      · have wrong := found ("wrong_count", .ofCount report.wrong) (by simp [entries])
        exact Or.inr (eq_of_mem_of_field? wrong member)

/-- A value with anything but a number of 64 bits in the place of a count is no report. -/
theorem ofJson?_eq_none_of_countIn {count : JsonValue} (place : CountIn count value)
    (outside : ∀ number : Nat, number < 2 ^ 64 → count ≠ .integer number) :
    ofJson? value = none := by
  cases done : ofJson? value with
  | none => rfl
  | some report =>
    rcases (ofJson?_eq_some_iff.mp done).count_eq place with same | same
    · exact absurd same (outside report.correct.toNat report.correct.toNat_lt)
    · exact absurd same (outside report.wrong.toNat report.wrong.toNat_lt)

/-- The JSON form of a report is faithful and nothing else is readable. A report is read back from
the object that it is written as. The values that are read as the report are exactly the objects
that hold its four fields, in any order and among any others, and the list of the four values, each
with the verdict in either spelling. Writing what was read from a value gives a value that is read
as the same report. A value with a count that is no integer from zero up to the largest number of 64
bits is refused. -/
theorem json_form_faithful (report : Report) (value : JsonValue) :
    ofJson? report.toJson = some report ∧
    (ofJson? value = some report ↔ report.WrittenAs value) ∧
    (ofJson? value = some report → ofJson? report.toJson = ofJson? value) ∧
    (∀ count, CountIn count value →
      (∀ number : Nat, number < 2 ^ 64 → count ≠ .integer number) → ofJson? value = none) := by
  have back := ofJson?_toJson report
  refine ⟨back, ofJson?_eq_some_iff, fun done => ?_, fun count => ofJson?_eq_none_of_countIn⟩
  rw [back, done]

/-- The largest count and an object for the verdict, among further fields with one key; and a
negative count. -/
theorem json_form_faithful_shuffled :
    let further : List (String × JsonValue) := [("note", .null), ("note", .decimal "1.5")]
    let value := JsonValue.object
      ([("verdict", .object [("WrongAnswer", .null)]),
        ("wrong_count", .integer 18446744073709551615),
        ("log", .list [.string "", .string "é\n"]), ("correct_count", .integer 0)] ++ further)
    let report : Report := ⟨0, 18446744073709551615, ["", "é\n"], .wrongAnswer⟩
    let refused := JsonValue.list [.integer 0, .integer (-1), .list [], .string "Accepted"]
    ofJson? value = some report ∧ report.WrittenAs value ∧ ofJson? report.toJson = ofJson? value ∧
      CountIn (.integer (-1)) refused ∧ ofJson? refused = none := by
  intro further value report refused
  have done : ofJson? value = some report := by decide
  have place : CountIn (.integer (-1)) refused := .second _ _
  obtain ⟨-, written, again, -⟩ := json_form_faithful report value
  obtain ⟨-, -, -, refusal⟩ := json_form_faithful report refused
  refine ⟨done, written.mp done, again done, place, refusal _ place fun number _ same => ?_⟩
  have number := integer.inj same
  omega

end Report

end CircuitGrading
