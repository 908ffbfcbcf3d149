import CircuitGrading.Grading.Texts
import CircuitGrading.Proofs.Equivalence
import CircuitGrading.Proofs.Fragments
import CircuitGrading.Proofs.Spelling

/-!
# Splitting a transcript

A transcript ends each entry of the log with a line feed, so it can be split into its entries only
if no entry has a line feed of its own. The lines of test cases are put together from fixed pieces,
digits and names of letters. The entry for a text that cannot be read shows a piece of it, whatever
characters the text has: by `Circuit.Refused.trueOf` the piece is one of the condensed text, and
condensing leaves no line feed, which is a blank (`SyntaxError.singleLine_message`).
-/

namespace CircuitGrading

/-- The text has no line feed. -/
def SingleLine (text : String) : Prop := '\n' ∉ text.toList

instance (text : String) : Decidable (SingleLine text) :=
  inferInstanceAs (Decidable ('\n' ∉ text.toList))

/-- A text that is put together is on one line if its parts are. -/
theorem singleLine_append {left right : String} :
    SingleLine (left ++ right) ↔ SingleLine left ∧ SingleLine right := by
  rw [SingleLine, String.toList_append, List.mem_append, not_or]
  rfl

/-- A text of given characters is on one line if no line feed is given. -/
theorem singleLine_ofList {text : Text} : SingleLine (String.ofList text) ↔ '\n' ∉ text := by
  rw [SingleLine, String.toList_ofList]

/-- A decimal number is on one line. -/
theorem singleLine_decimalString (number : Nat) : SingleLine (Text.decimalString number) := by
  rw [Text.decimalString, singleLine_ofList]
  intro member
  have digit := Text.isDigit_of_mem_decimal member
  contradiction

/-- Binary digits are on one line. -/
theorem singleLine_binary (width number : Nat) :
    SingleLine (String.ofList (Text.binary width number)) := by
  rw [singleLine_ofList, Text.binary, List.mem_map]
  rintro ⟨position, -, digit⟩
  split at digit <;> contradiction

/-- The name of a letter is on one line. -/
theorem Letter.singleLine_char (letter : Letter) : SingleLine (String.ofList [letter.char]) := by
  rw [singleLine_ofList, List.mem_singleton]
  intro same
  have capital := letter.isUpper_char
  rw [← same] at capital
  contradiction

/-- The name of a gate is on one line. -/
theorem Gate.singleLine_name (gate : Gate) : SingleLine gate.name := by
  intro member
  have capital := Gate.isUpper_of_mem_name member
  contradiction

/-- An error of evaluation is told on one line. -/
theorem EvalError.singleLine_message (error : EvalError) : SingleLine error.message := by
  unfold message
  cases error with
  | unassigned letter =>
    simp only [singleLine_append, letter.singleLine_char]
    decide

/-- The outcome of a test case is told on one line. -/
theorem Outcome.singleLine_line (width number : Nat) (outcome : Outcome) :
    SingleLine (outcome.line width number) := by
  unfold line
  cases outcome with
  | answered submitted expected =>
    have result : SingleLine (if submitted = expected then "Correct" else "Wrong") := by
      split <;> decide
    have digit : ∀ value, SingleLine (digit value) := by decide
    simp only [singleLine_append, result, singleLine_decimalString, singleLine_binary, digit]
    decide
  | submissionFailed error =>
    simp only [singleLine_append, singleLine_decimalString, error.singleLine_message]
    decide
  | referenceFailed error =>
    simp only [singleLine_append, singleLine_decimalString, error.singleLine_message]
    decide

/-- An error that is true of a text without line feeds is told on one line. -/
theorem SyntaxError.singleLine_message {text : Text} {error : SyntaxError}
    (said : error.TrueOf text) (single : '\n' ∉ text) : SingleLine error.message := by
  have piece : ∀ {fragment : Text}, fragment <:+: text → SingleLine (String.ofList fragment) :=
    fun within => singleLine_ofList.mpr fun member => single (within.subset member)
  unfold message
  -- Only the pieces of the text are in question; the wording around them is evaluated.
  cases error with
  | missing => decide
  | badEnding fragment =>
    simp only [singleLine_append, piece said.1]
    decide
  | notLetter c =>
    have character : SingleLine (String.ofList [c]) := by
      rw [singleLine_ofList, List.mem_singleton]
      rintro rfl
      exact single said.1
    simp only [singleLine_append, character]
    decide
  | strayClosing fragment =>
    obtain rfl : fragment = text := said
    simp only [singleLine_append, piece List.infix_rfl]
    decide
  | unclosed fragment level =>
    obtain rfl : fragment = text := said
    simp only [singleLine_append, piece List.infix_rfl, singleLine_decimalString]
    decide
  | tooDeep limit =>
    simp only [singleLine_append, singleLine_decimalString]
    decide
  | wrongArity gate found expected =>
    simp only [singleLine_append, gate.singleLine_name, singleLine_decimalString]
    decide
  | unknownGate name =>
    have named : name <:+: text := (List.prefix_append name ['(']).isInfix.trans said.1
    simp only [singleLine_append, piece named]
    decide

/-- A condensed text has no line feeds. -/
theorem Text.not_mem_condense_lineFeed (text : Text) : '\n' ∉ condense text := by
  intro member
  have solid := (of_mem_condense member).1
  contradiction

/-- A raw text is refused on one line. -/
theorem Circuit.singleLine_of_parse_condense {text : Text} {error : SyntaxError}
    (failed : parse text.condense = .error error) : SingleLine error.message :=
  error.singleLine_message (refused_of_parse failed).trueOf text.not_mem_condense_lineFeed

/-- Entries that are ended by line feeds are parted by line feeds, with nothing behind the last
one. -/
theorem toList_join_lines (entries : List String) :
    (String.join (entries.map fun entry => entry ++ "\n")).toList =
      List.intercalate ['\n'] (entries.map String.toList ++ [[]]) := by
  induction entries with
  | nil => rfl
  | cons entry rest ih =>
    have more : rest.map String.toList ++ [[]] ≠ [] :=
      List.append_ne_nil_of_right_ne_nil _ (List.cons_ne_nil [] [])
    rw [List.map_cons, List.map_cons, List.cons_append, List.intercalate_cons_of_ne_nil more, ← ih,
      String.join_cons, String.toList_append, String.toList_append]
    rfl

/-- Entries of one line each have as many line feeds as they are. -/
theorem count_join_lines {entries : List String} (single : ∀ entry ∈ entries, SingleLine entry) :
    (String.join (entries.map fun entry => entry ++ "\n")).toList.count '\n' = entries.length := by
  induction entries with
  | nil => rfl
  | cons entry rest ih =>
    obtain ⟨first, later⟩ := List.forall_mem_cons.mp single
    have here : entry.toList.count '\n' = 0 := List.count_eq_zero.mpr first
    have ending : "\n".toList.count '\n' = 1 := by decide
    rw [List.map_cons, String.join_cons, String.toList_append, String.toList_append,
      List.count_append, List.count_append, here, ending, ih later, List.length_cons]
    omega

/-- The entries of the log are found in the transcript. -/
structure Report.Splittable (report : Report) : Prop where
  /-- No entry has a line feed. -/
  singleLines : ∀ entry ∈ report.log, '\n' ∉ entry.toList
  /-- There are as many line feeds as entries. -/
  lineFeeds : report.transcript.toList.count '\n' = report.log.length
  /-- Between the line feeds are the entries in order, and nothing is behind the last one. -/
  pieces : report.transcript.toList.splitOn '\n' = report.log.map String.toList ++ [[]]

/-- A transcript is split at the ends of its entries, if these are on one line each. -/
theorem Report.splittable {report : Report} (single : ∀ entry ∈ report.log, SingleLine entry) :
    Splittable report where
  singleLines := single
  lineFeeds := count_join_lines single
  pieces := by
    rw [transcript, toList_join_lines]
    apply List.splitOn_intercalate
    · rw [List.forall_mem_append, List.forall_mem_map, List.forall_mem_singleton]
      exact ⟨single, List.not_mem_nil⟩
    · exact List.append_ne_nil_of_right_ne_nil _ (List.cons_ne_nil [] [])

section Texts

open Circuit

variable {submission reference : Text}

/-- A submission that cannot be read is reported with its error. -/
theorem gradeTexts_of_error {error : SyntaxError}
    (failed : parse submission.condense = .error error) (reference : Text) :
    gradeTexts submission reference = .ofSyntaxError .compileFailure error := by
  rw [gradeTexts, Circuit.read, failed]

/-- A reference that cannot be read is reported with its error, if the submission can be read. -/
theorem gradeTexts_of_reference_error {circuit : Circuit} {error : SyntaxError}
    (done : parse submission.condense = .ok circuit)
    (failed : parse reference.condense = .error error) :
    gradeTexts submission reference = .ofSyntaxError .referenceCompileFailure error := by
  rw [gradeTexts, Circuit.read, done]
  dsimp only
  rw [Circuit.read, failed]

/-- Texts that can be read are graded as circuits. -/
theorem gradeTexts_of_ok {submitted expected : Circuit}
    (done : parse submission.condense = .ok submitted)
    (referenceDone : parse reference.condense = .ok expected) :
    gradeTexts submission reference = grade submitted expected := by
  rw [gradeTexts, Circuit.read, done]
  dsimp only
  rw [Circuit.read, referenceDone]

/-- A grading of circuits does not end with the verdict on a text that cannot be read. -/
theorem verdict_grade_ne (submission reference : Circuit) :
    (grade submission reference).verdict ≠ .compileFailure ∧
      (grade submission reference).verdict ≠ .referenceCompileFailure := by
  by_cases known : submission.leaves ⊆ reference.leaves
  · rw [verdict_grade_of_subset known]
    split <;> decide
  · obtain ⟨letter, outside⟩ := exists_outside_iff.mpr known
    rw [verdict_grade_of_outside outside]
    decide

/-- The log of a grading has an entry for each test case. -/
theorem length_log_grade (submission reference : Circuit) :
    (grade submission reference).log.length = 2 ^ reference.letterCount := by
  rw [log_grade, List.length_map, List.length_range]
  rfl

/-- The entries of a grading are on one line each. -/
theorem singleLine_of_mem_log_grade {submission reference : Circuit} {entry : String}
    (member : entry ∈ (grade submission reference).log) : SingleLine entry := by
  rw [log_grade, List.mem_map] at member
  obtain ⟨number, -, rfl⟩ := member
  exact Outcome.singleLine_line reference.letterCount number _

/-- The verdict and the length of the log tell what became of the two texts. -/
structure Report.Tells (submission reference : Text) (report : Report) : Prop where
  /-- Where a text cannot be read, nothing is counted and there is one entry. -/
  refused : report.verdict = .compileFailure ∨ report.verdict = .referenceCompileFailure →
    report.log.length = 1 ∧ report.correct = 0 ∧ report.wrong = 0
  /-- Otherwise there is an entry for each choice of values for the letters of the reference. -/
  compared : report.verdict ≠ .compileFailure → report.verdict ≠ .referenceCompileFailure →
    ∃ circuit, parse reference.condense = .ok circuit ∧
      report.log.length = 2 ^ circuit.letterCount
  /-- The submission is refused whatever the reference is. -/
  compileFailure_iff : report.verdict = .compileFailure ↔
    ∃ error, parse submission.condense = .error error
  /-- The reference is refused only if the submission is not. -/
  referenceCompileFailure_iff : report.verdict = .referenceCompileFailure ↔
    (∃ circuit, parse submission.condense = .ok circuit) ∧
      ∃ error, parse reference.condense = .error error
  /-- The entry on a submission that is refused is the error. -/
  submissionError : ∀ error, parse submission.condense = .error error →
    report.log = [error.message]
  /-- The entry on a reference that is refused is the error. -/
  referenceError : ∀ circuit error, parse submission.condense = .ok circuit →
    parse reference.condense = .error error → report.log = [error.message]

/-- The report on a submission that is refused tells so. -/
theorem tells_of_error {error : SyntaxError} (failed : parse submission.condense = .error error)
    (reference : Text) :
    Report.Tells submission reference (.ofSyntaxError .compileFailure error) where
  refused := fun _ => ⟨rfl, rfl, rfl⟩
  compared := fun other => absurd rfl other
  compileFailure_iff := iff_of_true rfl ⟨error, failed⟩
  referenceCompileFailure_iff := by
    refine iff_of_false Verdict.noConfusion ?_
    rintro ⟨⟨circuit, done⟩, -⟩
    rw [failed] at done
    contradiction
  submissionError := by
    intro error' failed'
    rw [failed] at failed'
    rw [← Except.error.inj failed']
    rfl
  referenceError := by
    intro circuit error' done
    rw [failed] at done
    contradiction

/-- The report on a reference that is refused tells so. -/
theorem tells_of_reference_error {circuit : Circuit} {error : SyntaxError}
    (done : parse submission.condense = .ok circuit)
    (failed : parse reference.condense = .error error) :
    Report.Tells submission reference (.ofSyntaxError .referenceCompileFailure error) where
  refused := fun _ => ⟨rfl, rfl, rfl⟩
  compared := fun _ other => absurd rfl other
  compileFailure_iff := by
    refine iff_of_false Verdict.noConfusion ?_
    rintro ⟨error', failed'⟩
    rw [done] at failed'
    contradiction
  referenceCompileFailure_iff := iff_of_true rfl ⟨⟨circuit, done⟩, error, failed⟩
  submissionError := by
    intro error' failed'
    rw [done] at failed'
    contradiction
  referenceError := by
    intro circuit' error' _ failed'
    rw [failed] at failed'
    rw [← Except.error.inj failed']
    rfl

/-- The report of a grading tells that both texts are read. -/
theorem tells_of_ok {submitted expected : Circuit}
    (done : parse submission.condense = .ok submitted)
    (referenceDone : parse reference.condense = .ok expected) :
    Report.Tells submission reference (grade submitted expected) := by
  obtain ⟨notSubmission, notReference⟩ := verdict_grade_ne submitted expected
  have noError : ¬∃ error, parse submission.condense = .error error := by
    rintro ⟨error, failed⟩
    rw [done] at failed
    contradiction
  have noReferenceError : ¬∃ error, parse reference.condense = .error error := by
    rintro ⟨error, failed⟩
    rw [referenceDone] at failed
    contradiction
  constructor
  · rintro (verdict | verdict)
    · exact absurd verdict notSubmission
    · exact absurd verdict notReference
  · intro _ _
    exact ⟨expected, referenceDone, length_log_grade submitted expected⟩
  · exact iff_of_false notSubmission noError
  · exact iff_of_false notReference fun both => noReferenceError both.2
  · exact fun error failed => absurd ⟨error, failed⟩ noError
  · exact fun _ error _ failed => absurd ⟨error, failed⟩ noReferenceError

/-- The transcript of a report on raw texts is split into the entries of its log at the line feeds,
whatever characters the texts have; and the report tells which text was refused and why, or has an
entry for each test case. -/
theorem transcript_splits_into_entries (submission reference : Text) :
    (gradeTexts submission reference).Splittable ∧
      (gradeTexts submission reference).Tells submission reference := by
  cases done : parse submission.condense with
  | error error =>
    have line := singleLine_of_parse_condense done
    rw [gradeTexts_of_error done]
    exact ⟨Report.splittable (List.forall_mem_singleton.mpr line), tells_of_error done reference⟩
  | ok submitted =>
    cases referenceDone : parse reference.condense with
    | error error =>
      have line := singleLine_of_parse_condense referenceDone
      rw [gradeTexts_of_reference_error done referenceDone]
      exact ⟨Report.splittable (List.forall_mem_singleton.mpr line),
        tells_of_reference_error done referenceDone⟩
    | ok expected =>
      rw [gradeTexts_of_ok done referenceDone]
      exact ⟨Report.splittable fun _ => singleLine_of_mem_log_grade,
        tells_of_ok done referenceDone⟩

/-- A text over three lines, whose error shows two of them, as the submission and as the reference;
and a letter on the second line, graded against itself. -/
theorem transcript_splits_into_entries_line_breaks :
    let broken : Text := "and(a,\n(b)\n(c))".toList
    let letter : Text := "\na".toList
    let entry : String := "Expression '(B)(C)' is invalid: invalid ending"
    (gradeTexts broken letter).log = [entry] ∧
      (gradeTexts broken letter).verdict = .compileFailure ∧
      (gradeTexts broken letter).transcript.toList.splitOn '\n' = [entry.toList, []] ∧
      (gradeTexts letter broken).log = [entry] ∧
      (gradeTexts letter broken).verdict = .referenceCompileFailure ∧
      (gradeTexts letter broken).correct = 0 ∧
      (gradeTexts letter letter).log.length = 2 := by
  intro broken letter entry
  have failed : parse broken.condense = .error (.badEnding "(B)(C)".toList) := by decide +kernel
  have done : parse letter.condense = .ok (input ⟨0⟩) := by decide +kernel
  obtain ⟨⟨-, -, pieces⟩, first⟩ := transcript_splits_into_entries broken letter
  obtain ⟨-, second⟩ := transcript_splits_into_entries letter broken
  obtain ⟨-, both⟩ := transcript_splits_into_entries letter letter
  have message : (SyntaxError.badEnding "(B)(C)".toList).message = entry := by decide
  have log := first.submissionError _ failed
  have log' := second.referenceError _ _ done failed
  rw [message] at log log'
  rw [log] at pieces
  have verdict := first.compileFailure_iff.mpr ⟨_, failed⟩
  have verdict' := second.referenceCompileFailure_iff.mpr ⟨⟨_, done⟩, _, failed⟩
  have accepted : (gradeTexts letter letter).verdict = .accepted := by decide +kernel
  obtain ⟨circuit, done', cases⟩ :=
    both.compared (by rw [accepted]; decide) (by rw [accepted]; decide)
  rw [done] at done'
  have count : (input ⟨0⟩).letterCount = 1 := by decide
  rw [← Except.ok.inj done', count] at cases
  exact ⟨log, verdict, pieces, log', verdict', (second.refused (Or.inr verdict')).2.1, cases⟩

end Texts

end CircuitGrading
