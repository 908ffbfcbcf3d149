import CircuitGrading.Proofs.Dependence

/-!
# Exchange of submission and reference

A grading does not treat its two circuits alike: the reference may read letters that the submission
does not read. Only circuits with the same letters can be exchanged. Then both gradings go through
the same cases, the two values of each case are exchanged (`tableOutcome_exchanged`), and so are
they in each entry of the log (`ExchangedEntries`), while the verdict and the counts stay
(`counts_grade_exchanged`). Circuits with different letters are not accepted for each other in one
order at least (`exists_failed_of_letters_ne`). Acceptance in one order is the inclusion of the
letters together with the same meaning (`accepted_grade_iff`), so it is transitive although the
gradings of a chain may have different numbers of cases. `exchanged_roles` puts these together.
-/

namespace CircuitGrading

open Grading

namespace Outcome

/-- The outcome with its two values exchanged; a failure stays as it is. -/
def exchanged : Outcome → Outcome
  | answered submitted expected => answered expected submitted
  | submissionFailed error => submissionFailed error
  | referenceFailed error => referenceFailed error

/-- The order of the two values does not matter to the judgement. -/
theorem verdict?_exchanged (outcome : Outcome) :
    outcome.exchanged.verdict? = outcome.verdict? := by
  cases outcome with
  | answered submitted expected => cases submitted <;> cases expected <;> rfl
  | submissionFailed error => rfl
  | referenceFailed error => rfl

end Outcome

/-- The entries of a log are the same but for the values of the two circuits, and these are
exchanged. -/
def ExchangedEntries (entry entry' : String) : Prop :=
  ∃ (front : String) (submitted expected : Bool),
    entry = front ++ ")! Contestant: " ++ Outcome.digit submitted ++ ", Judge: " ++
      Outcome.digit expected ++ "." ∧
    entry' = front ++ ")! Contestant: " ++ Outcome.digit expected ++ ", Judge: " ++
      Outcome.digit submitted ++ "."

/-- The lines of a compared case before and after the exchange of its values. -/
theorem exchangedEntries_line (width number : Nat) (submitted expected : Bool) :
    ExchangedEntries ((Outcome.answered submitted expected).line width number)
      ((Outcome.answered expected submitted).line width number) := by
  let front := (if submitted = expected then "Correct" else "Wrong") ++ " answer on test case " ++
    Text.decimalString (number + 1) ++ " (" ++ String.ofList (Text.binary width number)
  refine ⟨front, submitted, expected, rfl, ?_⟩
  unfold Outcome.line
  simp only [front, eq_comm]

section SameLetters

variable {first second : Circuit} (letters : first.letters = second.letters)

include letters

/-- After the exchange of the circuits each case has its two values exchanged. -/
theorem tableOutcome_exchanged (number : Nat) :
    tableOutcome second first number = (tableOutcome first second number).exchanged := by
  obtain ⟨known, known'⟩ := Circuit.letters_eq_iff.mp letters
  rw [tableOutcome_of_subset known, tableOutcome_of_subset known', letters]
  rfl

/-- After the exchange of the circuits the verdict and the counts are the same. -/
theorem counts_grade_exchanged :
    (grade second first).verdict = (grade first second).verdict ∧
      (grade second first).correct = (grade first second).correct ∧
      (grade second first).wrong = (grade first second).wrong := by
  have width : first.letterCount = second.letterCount :=
    Circuit.letterCount_eq_of_letters_eq letters
  apply counts_grade_congr width
  intro number
  rw [tableOutcome_exchanged letters, Outcome.verdict?_exchanged]

/-- After the exchange of the circuits each entry of the log has its two values exchanged. -/
theorem forall₂_log_grade_exchanged :
    List.Forall₂ ExchangedEntries (grade first second).log (grade second first).log := by
  have width : first.letterCount = second.letterCount :=
    Circuit.letterCount_eq_of_letters_eq letters
  have known : first.leaves ⊆ second.leaves := (Circuit.letters_eq_iff.mp letters).1
  apply forall₂_log_grade width.symm
  intro number
  rw [tableOutcome_exchanged letters, tableOutcome_of_subset known, width]
  exact exchangedEntries_line _ _ _ _

end SameLetters

/-- Of two circuits with different letters one fails as a submission for the other. -/
theorem exists_failed_of_letters_ne {first second : Circuit}
    (different : first.letters ≠ second.letters) :
    ∃ report ∈ [grade first second, grade second first],
      report.verdict = .runtimeError ∧ report.correct = 0 ∧ report.wrong = 0 := by
  have unknown : ¬first.leaves ⊆ second.leaves ∨ ¬second.leaves ⊆ first.leaves := by
    rw [← not_and_or, ← Circuit.letters_eq_iff]
    exact different
  rcases unknown with forward | backward
  · obtain ⟨letter, outside⟩ := exists_outside_iff.mpr forward
    exact ⟨grade first second, by simp, grade_of_outside outside⟩
  · obtain ⟨letter, outside⟩ := exists_outside_iff.mpr backward
    exact ⟨grade second first, by simp, grade_of_outside outside⟩

/-- Circuits are accepted for each other exactly if they have the same letters and the same
meaning. -/
theorem accepted_each_other_iff {first second : Circuit} :
    ((grade first second).verdict = .accepted ∧ (grade second first).verdict = .accepted) ↔
      first.letters = second.letters ∧
        ∀ valuation, first.denote valuation = second.denote valuation := by
  rw [accepted_grade_iff, accepted_grade_iff, Circuit.letters_eq_iff]
  constructor
  · rintro ⟨⟨forward, meaning⟩, backward, -⟩
    exact ⟨⟨forward, backward⟩, meaning⟩
  · rintro ⟨⟨forward, backward⟩, meaning⟩
    exact ⟨⟨forward, meaning⟩, backward, fun valuation => (meaning valuation).symm⟩

/-- What is accepted for an accepted submission is accepted for its reference. -/
theorem accepted_trans {first second third : Circuit}
    (before : (grade first second).verdict = .accepted)
    (after : (grade second third).verdict = .accepted) :
    (grade first third).verdict = .accepted := by
  obtain ⟨known, meaning⟩ := accepted_grade_iff.mp before
  obtain ⟨known', meaning'⟩ := accepted_grade_iff.mp after
  apply accepted_grade_iff.mpr
  exact ⟨List.Subset.trans known known', fun valuation =>
    (meaning valuation).trans (meaning' valuation)⟩

/-- The roles of the two circuits can be exchanged if they have the same letters: the verdict, the
counts and the number of log entries stay the same, and in each entry the values of the two circuits
are exchanged. If the letters differ, one of the two gradings fails without any correct or wrong
case. So two circuits are accepted for each other exactly if they have the same letters and the same
value under every valuation. Acceptance is transitive. -/
theorem exchanged_roles :
    (∀ first second : Circuit, first.letters = second.letters →
      let report := grade first second
      let report' := grade second first
      report.verdict = report'.verdict ∧ report.correct = report'.correct ∧
        report.wrong = report'.wrong ∧ report.log.length = report'.log.length ∧
        List.Forall₂ ExchangedEntries report.log report'.log) ∧
    (∀ first second : Circuit, first.letters ≠ second.letters →
      ∃ report ∈ [grade first second, grade second first],
        report.verdict = .runtimeError ∧ report.correct = 0 ∧ report.wrong = 0) ∧
    (∀ first second : Circuit,
      ((grade first second).verdict = .accepted ∧ (grade second first).verdict = .accepted) ↔
        first.letters = second.letters ∧
          ∀ valuation, first.denote valuation = second.denote valuation) ∧
    ∀ first second third : Circuit,
      (grade first second).verdict = .accepted → (grade second third).verdict = .accepted →
        (grade first third).verdict = .accepted := by
  refine ⟨?_, fun _ _ => exists_failed_of_letters_ne, fun _ _ => accepted_each_other_iff,
    fun _ _ _ => accepted_trans⟩
  intro first second letters report report'
  obtain ⟨verdict, correct, wrong⟩ := counts_grade_exchanged letters
  have entries : List.Forall₂ ExchangedEntries report.log report'.log :=
    forall₂_log_grade_exchanged letters
  exact ⟨verdict.symm, correct.symm, wrong.symm, entries.length_eq, entries⟩

/-- Circuits that agree on half of the cases, circuits with different letters, and a chain of
gradings with two, four and eight cases. -/
theorem exchanged_roles_chain :
    let a := Circuit.input ⟨0⟩
    let b := Circuit.input ⟨1⟩
    let c := Circuit.input ⟨2⟩
    let second := Circuit.binary .and a (.binary .or b a)
    let third := Circuit.binary .or second (.binary .and c (.binary .and a b))
    ((grade (.binary .and a b) (.binary .or b a)).correct = 2 ∧
      (grade (.binary .or b a) (.binary .and a b)).correct = 2 ∧
      List.Forall₂ ExchangedEntries (grade (.binary .and a b) (.binary .or b a)).log
        (grade (.binary .or b a) (.binary .and a b)).log) ∧
    (∃ report ∈ [grade a second, grade second a],
      report.verdict = .runtimeError ∧ report.correct = 0 ∧ report.wrong = 0) ∧
    (grade a second).verdict = .accepted ∧ (grade second third).verdict = .accepted ∧
      (grade a third).verdict = .accepted := by
  intro a b c second third
  have half : (grade (.binary .and a b) (.binary .or b a)).correct = 2 := by decide
  obtain ⟨-, correct, -, -, entries⟩ :=
    exchanged_roles.1 (.binary .and a b) (.binary .or b a) (by decide)
  have failed := exchanged_roles.2.1 a second (by decide)
  have before : (grade a second).verdict = .accepted := by decide
  have after : (grade second third).verdict = .accepted := by decide
  exact ⟨⟨half, correct.symm.trans half, entries⟩, failed, before, after,
    exchanged_roles.2.2.2 a second third before after⟩

end CircuitGrading
