import CircuitGrading.Proofs.Dependence

/-!
# Negated circuits

On each case the negation of a submission agrees with the reference exactly where the submission
itself does not, so the two counts are exchanged (`counts_grade_not`) and each entry of the log says
the contrary of what it said (`OppositeEntries`). If the reference is negated as well, every case is
judged as before (`counts_grade_not_not`). A submission that reads another letter than the reference
has no value on any case, and neither has its negation, so there the whole report stays the same.
`negation_exchanges_counts` puts these together.
-/

namespace CircuitGrading

open Grading

namespace Outcome

/-- The outcome with both values changed; a failure stays as it is. -/
def mapValues (onSubmitted onExpected : Bool → Bool) : Outcome → Outcome
  | answered submitted expected => answered (onSubmitted submitted) (onExpected expected)
  | submissionFailed error => submissionFailed error
  | referenceFailed error => referenceFailed error

/-- The negated submission is correct where the submission is wrong. -/
theorem isCorrect_mapValues_not (outcome : Outcome) :
    (outcome.mapValues not id).isCorrect = outcome.isWrong := by
  cases outcome with
  | answered submitted expected => cases submitted <;> cases expected <;> rfl
  | submissionFailed error => rfl
  | referenceFailed error => rfl

/-- The negated submission is wrong where the submission is correct. -/
theorem isWrong_mapValues_not (outcome : Outcome) :
    (outcome.mapValues not id).isWrong = outcome.isCorrect := by
  cases outcome with
  | answered submitted expected => cases submitted <;> cases expected <;> rfl
  | submissionFailed error => rfl
  | referenceFailed error => rfl

/-- Two negated values are judged as the values are. -/
theorem verdict?_mapValues_not_not (outcome : Outcome) :
    (outcome.mapValues not not).verdict? = outcome.verdict? := by
  cases outcome with
  | answered submitted expected => cases submitted <;> cases expected <;> rfl
  | submissionFailed error => rfl
  | referenceFailed error => rfl

end Outcome

/-- The entry of a log says that its case is correct, or that it is wrong. -/
def Judged (correct : Bool) (entry : String) : Prop :=
  (if correct then "Correct answer" else "Wrong answer").toList <+: entry.toList

/-- Both entries judge a case, and each says the contrary of the other. -/
def OppositeEntries (entry entry' : String) : Prop :=
  (∃ correct, Judged correct entry) ∧ ∀ correct, Judged correct entry' ↔ Judged (!correct) entry

/-- The line of a compared case says what the two values say, and nothing else. -/
theorem judged_line_answered_iff (correct : Bool) (width number : Nat)
    (submitted expected : Bool) :
    Judged correct ((Outcome.answered submitted expected).line width number) ↔
      (submitted == expected) = correct := by
  constructor
  · -- The first characters of the two phrases differ.
    rintro ⟨rest, text⟩
    have head := congrArg List.head? text
    rw [head?_line_answered] at head
    revert head
    cases correct <;> cases submitted <;> cases expected <;> simp
  · rintro rfl
    have phrase :
        (if submitted = expected then "Correct" else "Wrong") ++ " answer on test case " =
          (if submitted == expected then "Correct answer" else "Wrong answer") ++
            " on test case " := by
      cases submitted <;> cases expected <;> rfl
    show _ <+: ((if submitted = expected then "Correct" else "Wrong") ++ " answer on test case " ++
      Text.decimalString (number + 1) ++ " (" ++ String.ofList (Text.binary width number) ++
      ")! Contestant: " ++ Outcome.digit submitted ++ ", Judge: " ++ Outcome.digit expected ++
      ".").toList
    rw [phrase]
    simp only [String.toList_append, List.append_assoc]
    exact List.prefix_append _ _

/-- The lines of a compared case without and with negation of the submitted value are opposite. -/
theorem oppositeEntries_line (width number : Nat) (submitted expected : Bool) :
    OppositeEntries ((Outcome.answered submitted expected).line width number)
      ((Outcome.answered (!submitted) expected).line width number) := by
  constructor
  · exact ⟨submitted == expected, (judged_line_answered_iff _ _ _ _ _).mpr rfl⟩
  · intro correct
    rw [judged_line_answered_iff, judged_line_answered_iff]
    revert submitted expected correct
    decide

/-- A negation reads the letters of its operand. -/
theorem Circuit.firstOutside?_not (known : List Letter) (circuit : Circuit) :
    (Circuit.not circuit).firstOutside? known = circuit.firstOutside? known := rfl

variable (submission reference : Circuit)

/-- Negating the submission negates the submitted value of each case. -/
theorem tableOutcome_not (number : Nat) :
    tableOutcome (.not submission) reference number =
      (tableOutcome submission reference number).mapValues not id := by
  rw [tableOutcome, tableOutcome, Circuit.firstOutside?_not]
  cases submission.firstOutside? reference.leaves with
  | some letter => rfl
  | none => rfl

/-- Negating both circuits negates both values of each case. -/
theorem tableOutcome_not_not (number : Nat) :
    tableOutcome (.not submission) (.not reference) number =
      (tableOutcome submission reference number).mapValues not not := by
  have leaves : (Circuit.not reference).leaves = reference.leaves := rfl
  rw [tableOutcome, tableOutcome, Circuit.firstOutside?_not, leaves]
  cases submission.firstOutside? reference.leaves with
  | some letter => rfl
  | none => rfl

/-- Negating the submission exchanges the counts. -/
theorem counts_grade_not :
    (grade (.not submission) reference).correct = (grade submission reference).wrong ∧
      (grade (.not submission) reference).wrong = (grade submission reference).correct := by
  constructor
  · apply UInt64.toNat_inj.mp
    rw [correct_grade, wrong_grade]
    simp only [tableOutcome_not, Outcome.isCorrect_mapValues_not]
  · apply UInt64.toNat_inj.mp
    rw [correct_grade, wrong_grade]
    simp only [tableOutcome_not, Outcome.isWrong_mapValues_not]

/-- Negating both circuits leaves the verdict and the counts as they are. -/
theorem counts_grade_not_not :
    (grade (.not submission) (.not reference)).verdict = (grade submission reference).verdict ∧
      (grade (.not submission) (.not reference)).correct = (grade submission reference).correct ∧
      (grade (.not submission) (.not reference)).wrong = (grade submission reference).wrong := by
  have width : (Circuit.not reference).letterCount = reference.letterCount := rfl
  apply counts_grade_congr width
  intro number
  rw [tableOutcome_not_not, Outcome.verdict?_mapValues_not_not]

section Known

variable {submission reference : Circuit} (known : submission.leaves ⊆ reference.leaves)

include known

/-- Negating the submission turns each entry of the log into its contrary. -/
theorem forall₂_log_grade_not :
    List.Forall₂ OppositeEntries (grade submission reference).log
      (grade (.not submission) reference).log := by
  apply forall₂_log_grade rfl
  intro number
  rw [tableOutcome_not, tableOutcome_of_subset known]
  exact oppositeEntries_line _ _ _ _

/-- The negation of a submission is accepted if the submission is correct on no case, and otherwise
its answer is wrong. -/
theorem verdict_grade_not :
    (grade (.not submission) reference).verdict =
      if (grade submission reference).correct = 0 then .accepted else .wrongAnswer := by
  have knownNegated : (Circuit.not submission).leaves ⊆ reference.leaves := known
  rw [verdict_grade_of_wrong knownNegated, (counts_grade_not submission reference).2]

end Known

/-- A submission without a value on any case is reported like its negation. -/
theorem grade_not_of_outside {letter : Letter}
    (outside : submission.firstOutside? reference.leaves = some letter) :
    grade (.not submission) reference = grade submission reference := by
  have unknown : ¬submission.leaves ⊆ reference.leaves := exists_outside_iff.mp ⟨letter, outside⟩
  exact grade_congr rfl (fun _ => rfl) (Circuit.firstOutside?_not _ _) fun known =>
    absurd known unknown

/-- Negation exchanges the counts. If the submission reads letters of the reference only, then its
negation has the two counts exchanged and as many log entries, each saying the contrary, and is
accepted exactly if no case was correct; otherwise the whole report stays the same. Negating the
reference as well keeps the verdict and the counts. So a circuit is correct on every case for
itself, and its negation on none. -/
theorem negation_exchanges_counts :
    let report := grade submission reference
    let negated := grade (.not submission) reference
    let bothNegated := grade (.not submission) (.not reference)
    (submission.leaves ⊆ reference.leaves →
      negated.correct = report.wrong ∧ negated.wrong = report.correct ∧
      negated.log.length = report.log.length ∧
      List.Forall₂ OppositeEntries report.log negated.log ∧
      (negated.verdict = .accepted ↔ report.correct = 0)) ∧
    (¬submission.leaves ⊆ reference.leaves → negated = report) ∧
    (bothNegated.verdict = report.verdict ∧ bothNegated.correct = report.correct ∧
      bothNegated.wrong = report.wrong) ∧
    ∀ circuit : Circuit,
      let itself := grade circuit circuit
      let contrary := grade (.not circuit) circuit
      (itself.verdict = .accepted ∧ itself.correct.toNat = 2 ^ circuit.letterCount ∧
        itself.wrong = 0) ∧
      (contrary.verdict = .wrongAnswer ∧ contrary.correct = 0 ∧
        contrary.wrong.toNat = 2 ^ circuit.letterCount) := by
  intro report negated bothNegated
  refine ⟨?_, ?_, counts_grade_not_not submission reference, ?_⟩
  · intro known
    obtain ⟨correct, wrong⟩ := counts_grade_not submission reference
    have entries : List.Forall₂ OppositeEntries report.log negated.log :=
      forall₂_log_grade_not known
    have verdict : negated.verdict =
        if report.correct = 0 then .accepted else .wrongAnswer := verdict_grade_not known
    exact ⟨correct, wrong, entries.length_eq.symm, entries, by simp [verdict]⟩
  · intro unknown
    obtain ⟨letter, outside⟩ := exists_outside_iff.mpr unknown
    exact grade_not_of_outside submission reference outside
  · intro circuit itself contrary
    have known : circuit.leaves ⊆ circuit.leaves := List.Subset.refl _
    obtain ⟨accepted, all, none⟩ := grade_of_same_meaning known fun _ => rfl
    obtain ⟨correct, wrong⟩ := counts_grade_not circuit circuit
    have some : itself.correct ≠ 0 := by
      intro zero
      have noCase : itself.correct.toNat = 0 := congrArg UInt64.toNat zero
      exact absurd (all.symm.trans noCase) (Nat.two_pow_pos _).ne'
    have verdict : contrary.verdict =
        if itself.correct = 0 then .accepted else .wrongAnswer := verdict_grade_not known
    rw [if_neg some] at verdict
    exact ⟨⟨accepted, all, none⟩, verdict, correct.trans none,
      (congrArg UInt64.toNat wrong).trans all⟩

/-- A submission that is correct on three of four cases, and one that reads a letter too many. -/
theorem negation_exchanges_counts_three_to_one :
    let a := Circuit.input ⟨0⟩
    let b := Circuit.input ⟨1⟩
    let c := Circuit.input ⟨2⟩
    let reference := Circuit.binary .and a b
    (grade a reference).correct = 3 ∧
      (grade (.not a) reference).correct = 1 ∧ (grade (.not a) reference).wrong = 3 ∧
      List.Forall₂ OppositeEntries (grade a reference).log (grade (.not a) reference).log ∧
      grade (.not (.binary .or c a)) reference = grade (.binary .or c a) reference := by
  intro a b c reference
  have three : (grade a reference).correct = 3 := by decide
  have one : (grade a reference).wrong = 1 := by decide
  obtain ⟨correct, wrong, -, entries, -⟩ := (negation_exchanges_counts a reference).1 (by decide)
  have unchanged := (negation_exchanges_counts (.binary .or c a) reference).2.1 (by decide)
  exact ⟨three, correct.trans one, wrong.trans three, entries, unchanged⟩

end CircuitGrading
