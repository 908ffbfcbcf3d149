import CircuitGrading.Proofs.TruthTable

/-!
# Gradings decide equivalence

The cases of a grading are enough to tell two circuits apart: the values that a circuit can read
are all enumerated (`forall_cases_iff`). So the verdict says whether the submission reads letters
of the reference only, and if it does, whether the two circuits have the same meaning
(`verdict_grade_iff`). The verdict of a run is the last one written, but all that a run writes are
of one kind.
-/

namespace CircuitGrading

open Grading

variable {submission reference : Circuit}

/-- A submission that reads another letter fails. -/
theorem verdict_grade_of_outside {letter : Letter}
    (outside : submission.firstOutside? reference.leaves = some letter) :
    (grade submission reference).verdict = .runtimeError := by
  obtain ⟨before, total⟩ : ∃ before, caseCount reference = before + 1 :=
    Nat.exists_eq_succ_of_ne_zero (Nat.two_pow_pos _).ne'
  rw [verdict_grade, total, List.range_succ, List.filterMap_append]
  simp only [tableOutcome_of_outside outside, Outcome.verdict?, List.filterMap_cons,
    List.filterMap_nil, List.getLast?_append, List.getLast?_singleton, Option.some_or,
    Option.getD_some]

section Known

variable (known : submission.leaves ⊆ reference.leaves)

include known

/-- The cases settle whether two circuits have the same meaning, if the first reads letters of the
second only. -/
theorem forall_cases_iff :
    (∀ number < caseCount reference,
      submission.denote (Letter.numbered reference.letters.toList number) =
        reference.denote (Letter.numbered reference.letters.toList number)) ↔
      ∀ valuation, submission.denote valuation = reference.denote valuation := by
  constructor
  · intro cases valuation
    -- The valuation is that of a case on all letters that either circuit reads.
    obtain ⟨number, inside, same⟩ :=
      Letter.exists_numbered_eq reference.letters.toList valuation
    have sameLeaf : ∀ letter ∈ reference.leaves,
        valuation letter = Letter.numbered reference.letters.toList number letter :=
      fun letter member => (same letter (mem_order.mpr member)).symm
    calc
      submission.denote valuation =
          submission.denote (Letter.numbered reference.letters.toList number) :=
        Circuit.denote_congr fun letter member => sameLeaf letter (known member)
      _ = reference.denote (Letter.numbered reference.letters.toList number) :=
        cases number inside
      _ = reference.denote valuation :=
        Circuit.denote_congr fun letter member => (sameLeaf letter member).symm
  · intro same number _
    exact same _

/-- A submission that reads letters of the reference only is accepted or wrong. -/
theorem verdict_grade_of_subset :
    (grade submission reference).verdict =
      if ∀ number < caseCount reference,
          submission.denote (Letter.numbered reference.letters.toList number) =
            reference.denote (Letter.numbered reference.letters.toList number)
        then .accepted else .wrongAnswer := by
  rw [verdict_grade]
  simp only [tableOutcome_of_subset known, Outcome.verdict?]
  split
  · rename_i agree
    have nothing : (List.range (caseCount reference)).filterMap (fun number =>
        if submission.denote (Letter.numbered reference.letters.toList number) =
            reference.denote (Letter.numbered reference.letters.toList number)
          then none else some Verdict.wrongAnswer) = [] := by
      rw [List.filterMap_eq_nil_iff]
      intro number inside
      rw [if_pos (agree number (List.mem_range.mp inside))]
    rw [nothing]
    rfl
  · rename_i differ
    cases written : ((List.range (caseCount reference)).filterMap (fun number =>
        if submission.denote (Letter.numbered reference.letters.toList number) =
            reference.denote (Letter.numbered reference.letters.toList number)
          then none else some Verdict.wrongAnswer)).getLast? with
    | none =>
      rw [List.getLast?_eq_none_iff, List.filterMap_eq_nil_iff] at written
      refine absurd (fun number inside => ?_) differ
      have silent := written number (List.mem_range.mpr inside)
      by_contra unequal
      rw [if_neg unequal] at silent
      contradiction
    | some verdict =>
      obtain ⟨number, _, wrote⟩ := List.mem_filterMap.mp (List.mem_of_getLast? written)
      split at wrote
      · contradiction
      · exact (Option.some.inj wrote).symm

/-- The count of wrong cases decides between the two verdicts. -/
theorem verdict_grade_of_wrong :
    (grade submission reference).verdict =
      if (grade submission reference).wrong = 0 then .accepted else .wrongAnswer := by
  have none : (grade submission reference).wrong = 0 ↔
      ∀ number < caseCount reference,
        submission.denote (Letter.numbered reference.letters.toList number) =
          reference.denote (Letter.numbered reference.letters.toList number) := by
    rw [← UInt64.toNat_inj, wrong_grade_of_subset known]
    simp only [UInt64.toNat_zero, List.countP_eq_zero, List.mem_range, bne_iff_ne, ne_eq, not_not]
  rw [verdict_grade_of_subset known]
  simp only [none]

end Known

/-- A submission is accepted if it reads letters of the reference only and has its meaning, and for
no other reason. -/
theorem accepted_grade_iff :
    (grade submission reference).verdict = .accepted ↔
      submission.leaves ⊆ reference.leaves ∧
        ∀ valuation, submission.denote valuation = reference.denote valuation := by
  by_cases known : submission.leaves ⊆ reference.leaves
  · rw [verdict_grade_of_subset known, ← forall_cases_iff known]
    simp [known]
  · obtain ⟨letter, outside⟩ := exists_outside_iff.mpr known
    rw [verdict_grade_of_outside outside]
    simp [known]

/-- The line of a compared case says so from its first character on. -/
theorem head?_line_answered (width number : Nat) (submitted expected : Bool) :
    ((Outcome.answered submitted expected).line width number).toList.head? =
      some (if submitted = expected then 'C' else 'W') := by
  change ((if submitted = expected then "Correct" else "Wrong") ++ " answer on test case " ++
    Text.decimalString (number + 1) ++ " (" ++ String.ofList (Text.binary width number) ++
    ")! Contestant: " ++ Outcome.digit submitted ++ ", Judge: " ++ Outcome.digit expected ++
    ".").toList.head? = _
  by_cases same : submitted = expected
  · simp only [if_pos same, String.toList_append, List.append_assoc]
    rfl
  · simp only [if_neg same, String.toList_append, List.append_assoc]
    rfl

/-- The line of a failed submission says so from its first character on. -/
theorem head?_line_submissionFailed (width number : Nat) (error : EvalError) :
    ((Outcome.submissionFailed error).line width number).toList.head? = some 'S' := by
  change ("Submission evaluation failed on test case " ++ Text.decimalString (number + 1) ++
    ". Error: " ++ error.message ++ ".").toList.head? = _
  simp only [String.toList_append, List.append_assoc]
  rfl

/-- No log holds both the line of a wrong answer and the line of a failed submission. -/
theorem not_wrong_and_failed {wrong failed : String}
    (wrongLogged : wrong ∈ (grade submission reference).log)
    (failedLogged : failed ∈ (grade submission reference).log) :
    ¬("Wrong answer".toList <+: wrong.toList ∧
      "Submission evaluation failed".toList <+: failed.toList) := by
  rintro ⟨⟨wrongRest, wrongText⟩, ⟨failedRest, failedText⟩⟩
  rw [log_grade] at wrongLogged failedLogged
  obtain ⟨wrongCase, -, rfl⟩ := List.mem_map.mp wrongLogged
  obtain ⟨failedCase, -, rfl⟩ := List.mem_map.mp failedLogged
  by_cases known : submission.leaves ⊆ reference.leaves
  · have head := congrArg List.head? failedText
    rw [tableOutcome_of_subset known, head?_line_answered] at head
    have first := Option.some.inj head
    split at first <;> revert first <;> decide
  · obtain ⟨letter, outside⟩ := exists_outside_iff.mpr known
    have head := congrArg List.head? wrongText
    rw [tableOutcome_of_outside outside, head?_line_submissionFailed] at head
    have first := Option.some.inj head
    revert first
    decide

variable (submission reference)

/-- A grading decides equivalence: the submission is accepted exactly if it reads letters of the
reference only and has the meaning of the reference under every valuation, its answer is wrong
exactly if it reads letters of the reference only and some valuation tells the two apart, and it
fails exactly if it reads another letter. There is no other verdict, and no log holds both a wrong
answer and a failure. -/
theorem verdict_grade_iff :
    let report := grade submission reference
    (report.verdict = .accepted ↔
      submission.leaves ⊆ reference.leaves ∧
        ∀ valuation, submission.denote valuation = reference.denote valuation) ∧
    (report.verdict = .wrongAnswer ↔
      submission.leaves ⊆ reference.leaves ∧
        ∃ valuation, submission.denote valuation ≠ reference.denote valuation) ∧
    (report.verdict = .runtimeError ↔
      ∃ letter ∈ submission.leaves, letter ∉ reference.leaves) ∧
    report.verdict ∈ [.accepted, .wrongAnswer, .runtimeError] ∧
    ∀ wrong ∈ report.log, ∀ failed ∈ report.log,
      ¬("Wrong answer".toList <+: wrong.toList ∧
        "Submission evaluation failed".toList <+: failed.toList) := by
  intro report
  have apart : ∀ wrong ∈ report.log, ∀ failed ∈ report.log,
      ¬("Wrong answer".toList <+: wrong.toList ∧
        "Submission evaluation failed".toList <+: failed.toList) :=
    fun _ wrongLogged _ failedLogged => not_wrong_and_failed wrongLogged failedLogged
  have unknownLetter : (∃ letter ∈ submission.leaves, letter ∉ reference.leaves) ↔
      ¬submission.leaves ⊆ reference.leaves := by
    simp only [List.subset_def, not_forall, exists_prop]
  rw [unknownLetter]
  by_cases known : submission.leaves ⊆ reference.leaves
  · have verdict : report.verdict = _ := verdict_grade_of_subset known
    by_cases agree : ∀ valuation, submission.denote valuation = reference.denote valuation
    · rw [if_pos ((forall_cases_iff known).mpr agree)] at verdict
      exact ⟨by simp [verdict, known, agree], by simp [verdict, agree], by simp [verdict, known],
        by simp [verdict], apart⟩
    · rw [if_neg (mt (forall_cases_iff known).mp agree)] at verdict
      have differ : ∃ valuation, submission.denote valuation ≠ reference.denote valuation :=
        not_forall.mp agree
      exact ⟨by simp [verdict, agree], by simp [verdict, known, differ], by simp [verdict, known],
        by simp [verdict], apart⟩
  · obtain ⟨letter, outside⟩ := exists_outside_iff.mpr known
    have verdict : report.verdict = .runtimeError := verdict_grade_of_outside outside
    exact ⟨by simp [verdict, known], by simp [verdict, known], by simp [verdict, known],
      by simp [verdict], apart⟩

end CircuitGrading
