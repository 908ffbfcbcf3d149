import CircuitGrading.Grading.Run
import CircuitGrading.Proofs.Enumeration
import CircuitGrading.Proofs.Evaluation

/-!
# Gradings as truth tables

A grading loads one assignment with each number in turn and keeps a tally. `tableOutcome` is the
same comparison without state: the outcome of a case is read off its number. A run records exactly
the outcomes of the table (`runFrom_eq`), because every case overwrites all values that the case
before it has left, and a tally is determined by the outcomes that are recorded: counts, log lines,
and the last verdict written. So each field of a report is a function of the table
(`log_grade`, `correct_grade`, `wrong_grade`, `verdict_grade`).
-/

namespace CircuitGrading

namespace Outcome

/-- Both circuits have the same value. -/
def isCorrect : Outcome → Bool
  | answered submitted expected => submitted == expected
  | submissionFailed _ | referenceFailed _ => false

/-- The circuits have different values. -/
def isWrong : Outcome → Bool
  | answered submitted expected => submitted != expected
  | submissionFailed _ | referenceFailed _ => false

/-- The verdict that the outcome writes; a correct case writes none. -/
def verdict? : Outcome → Option Verdict
  | answered submitted expected => if submitted = expected then none else some .wrongAnswer
  | submissionFailed _ => some .runtimeError
  | referenceFailed _ => some .referenceRuntimeError

end Outcome

namespace Tally

/-- A recorded outcome adds its line to the log. -/
theorem reversedLog_record (tally : Tally) (width number : Nat) (outcome : Outcome) :
    (tally.record width number outcome).reversedLog =
      outcome.line width number :: tally.reversedLog := by
  cases outcome with
  | answered submitted expected =>
    by_cases same : submitted = expected <;> simp only [record, same, if_true, if_false]
  | submissionFailed error => rfl
  | referenceFailed error => rfl

/-- A correct case is counted as correct, and no other. -/
theorem correct_record (tally : Tally) (width number : Nat) (outcome : Outcome) :
    (tally.record width number outcome).correct =
      tally.correct + if outcome.isCorrect then 1 else 0 := by
  cases outcome with
  | answered submitted expected =>
    by_cases same : submitted = expected <;> simp [record, Outcome.isCorrect, same]
  | submissionFailed error => exact (UInt64.add_zero _).symm
  | referenceFailed error => exact (UInt64.add_zero _).symm

/-- A wrong case is counted as wrong, and no other. -/
theorem wrong_record (tally : Tally) (width number : Nat) (outcome : Outcome) :
    (tally.record width number outcome).wrong =
      tally.wrong + if outcome.isWrong then 1 else 0 := by
  cases outcome with
  | answered submitted expected =>
    by_cases same : submitted = expected <;> simp [record, Outcome.isWrong, same]
  | submissionFailed error => exact (UInt64.add_zero _).symm
  | referenceFailed error => exact (UInt64.add_zero _).symm

/-- The verdict becomes the one that the outcome writes, if it writes one. -/
theorem verdict_record (tally : Tally) (width number : Nat) (outcome : Outcome) :
    (tally.record width number outcome).verdict = outcome.verdict?.getD tally.verdict := by
  cases outcome with
  | answered submitted expected =>
    by_cases same : submitted = expected <;> simp [record, Outcome.verdict?, same]
  | submissionFailed error => rfl
  | referenceFailed error => rfl

/-- Record the outcomes of numbered cases in turn. -/
def recordAll (tally : Tally) (width : Nat) (outcomes : Nat → Outcome) (numbers : List Nat) :
    Tally :=
  numbers.foldl (fun tally number => tally.record width number (outcomes number)) tally

variable (width : Nat) (outcomes : Nat → Outcome)

/-- The lines of all outcomes are logged in order. -/
theorem reversedLog_recordAll (tally : Tally) (numbers : List Nat) :
    (tally.recordAll width outcomes numbers).reversedLog =
      (numbers.map fun number => (outcomes number).line width number).reverse ++
        tally.reversedLog := by
  induction numbers generalizing tally with
  | nil => rfl
  | cons number rest ih =>
    have later := ih (tally.record width number (outcomes number))
    rw [reversedLog_record] at later
    rw [List.map_cons, List.reverse_cons, List.append_assoc]
    exact later

/-- A counter that each recorded outcome raises by one or leaves alone counts the outcomes that
raise it, modulo the word size. -/
theorem counter_recordAll {counter : Tally → UInt64} {counted : Outcome → Bool}
    (step : ∀ (tally : Tally) (number : Nat) (outcome : Outcome),
      counter (tally.record width number outcome) =
        counter tally + if counted outcome then 1 else 0)
    (tally : Tally) (numbers : List Nat) :
    counter (tally.recordAll width outcomes numbers) =
      counter tally + UInt64.ofNat (numbers.countP fun number => counted (outcomes number)) := by
  induction numbers generalizing tally with
  | nil => exact (UInt64.add_zero _).symm
  | cons number rest ih =>
    have later := ih (tally.record width number (outcomes number))
    rw [step, UInt64.add_assoc] at later
    rw [List.countP_cons, Nat.add_comm, UInt64.ofNat_add]
    cases counted : counted (outcomes number) with
    | true => rw [counted] at later; exact later
    | false => rw [counted] at later; exact later

/-- The verdict is the last one that an outcome writes; if none writes one it stays. -/
theorem verdict_recordAll (tally : Tally) (numbers : List Nat) :
    (tally.recordAll width outcomes numbers).verdict =
      (numbers.filterMap fun number => (outcomes number).verdict?).getLast?.getD
        tally.verdict := by
  induction numbers generalizing tally with
  | nil => rfl
  | cons number rest ih =>
    have later := ih (tally.record width number (outcomes number))
    rw [verdict_record] at later
    cases written : (outcomes number).verdict? with
    | none =>
      rw [written] at later
      simp only [List.filterMap_cons, written]
      exact later
    | some verdict =>
      rw [written] at later
      simp only [List.filterMap_cons, written, List.getLast?_cons, Option.getD_some]
      exact later

end Tally

/-- The outcome of a case in the truth table: both meanings under the values that the number of
the case gives to the letters of the reference, unless the submission reads another letter. -/
def tableOutcome (submission reference : Circuit) (number : Nat) : Outcome :=
  match submission.firstOutside? reference.leaves with
  | some letter => .submissionFailed (.unassigned letter)
  | none =>
    let valuation := Letter.numbered reference.letters.toList number
    .answered (submission.denote valuation) (reference.denote valuation)

namespace Grading

variable {ε : Type} {guard : Nat → Except ε Unit} {submission reference : Circuit}

/-- The listed letters of a circuit are those at its leaves. -/
theorem mem_order {letter : Letter} :
    letter ∈ reference.letters.toList ↔ letter ∈ reference.leaves :=
  LetterSet.mem_toList.trans Circuit.mem_letters

/-- A grading has `2 ^ 26` cases at most. -/
theorem caseCount_le (reference : Circuit) : caseCount reference ≤ 2 ^ 26 :=
  Nat.pow_le_pow_right (by decide) reference.letterCount_le

/-- Whatever values the case before has left to the letters of the reference, the outcome of a
case is that of the truth table. -/
theorem ofCase_loadNumber {assignment : Assignment} {number : Nat} (fits : number < 2 ^ 64)
    (unread : ∀ letter, letter ∉ reference.leaves → assignment.value? letter = none) :
    Outcome.ofCase submission reference
        (assignment.loadNumber reference.letters.toList (UInt64.ofNat number)) =
      tableOutcome submission reference number := by
  have values : ∀ letter,
      (assignment.loadNumber reference.letters.toList (UInt64.ofNat number)).value? letter =
        if letter ∈ reference.leaves then
          some (Letter.numbered reference.letters.toList number letter)
        else none := by
    intro letter
    rw [Assignment.value?_loadNumber, UInt64.toNat_ofNat_of_lt' fits]
    by_cases read : letter ∈ reference.leaves
    · rw [if_pos (mem_order.mpr read), if_pos read]
    · rw [if_neg (mt mem_order.mp read), if_neg read, unread letter read]
  have complete : reference.firstOutside? reference.leaves = none :=
    Circuit.firstOutside?_eq_none.mpr (List.Subset.refl _)
  rw [Outcome.ofCase, Circuit.eval_of_known values, Circuit.eval_of_known values, complete,
    tableOutcome]
  cases submission.firstOutside? reference.leaves <;> rfl

/-- No case of the truth table stops a run. -/
theorem isFinal_tableOutcome (number : Nat) :
    (tableOutcome submission reference number).isFinal = false := by
  unfold tableOutcome
  cases submission.firstOutside? reference.leaves <;> rfl

/-- A run that its guard lets pass records the outcomes of the truth table in order. -/
theorem runFrom_eq {remaining number : Nat} {assignment : Assignment} (tally : Tally)
    (passes : ∀ later, number ≤ later → later < number + remaining → guard later = .ok ())
    (fits : number + remaining ≤ 2 ^ 64)
    (unread : ∀ letter, letter ∉ reference.leaves → assignment.value? letter = none) :
    runFrom guard submission reference reference.letters.toList remaining number assignment
        tally =
      .ok (tally.recordAll reference.letterCount (tableOutcome submission reference)
        (List.range' number remaining)).report := by
  -- The invariant of the loop is `unread`: no case gives a value to a letter outside the reference.
  induction remaining generalizing number assignment tally with
  | zero => rfl
  | succ remaining ih =>
    have passed := passes number (Nat.le_refl _) (by omega)
    have outcome : Outcome.ofCase submission reference
        (assignment.loadNumber reference.letters.toList (UInt64.ofNat number)) =
          tableOutcome submission reference number := ofCase_loadNumber (by omega) unread
    have stillUnread : ∀ letter, letter ∉ reference.leaves →
        (assignment.loadNumber reference.letters.toList (UInt64.ofNat number)).value? letter =
          none := by
      intro letter outside
      rw [Assignment.value?_loadNumber, if_neg (mt mem_order.mp outside), unread letter outside]
    have laterPasses : ∀ later, number + 1 ≤ later → later < number + 1 + remaining →
        guard later = .ok () := fun later low high => passes later (by omega) (by omega)
    have later := ih
      (tally.record reference.letterCount number (tableOutcome submission reference number))
      laterPasses (by omega) stillUnread
    simp only [runFrom, passed, outcome, isFinal_tableOutcome, Bool.false_eq_true, if_false]
    rw [List.range'_succ]
    exact later

/-- A run that its guard lets pass throughout reports the truth table. -/
theorem run_eq (passes : ∀ number < caseCount reference, guard number = .ok ()) :
    run guard submission reference =
      .ok (Tally.start.recordAll reference.letterCount (tableOutcome submission reference)
        (List.range (caseCount reference))).report := by
  have fits := caseCount_le reference
  rw [List.range_eq_range']
  exact runFrom_eq Tally.start (fun later _ below => passes later (by omega)) (by omega)
    (fun letter _ => Assignment.value?_empty letter)

end Grading

section Report

open Grading

variable (submission reference : Circuit)

/-- A grading reports the truth table. -/
theorem grade_eq :
    grade submission reference =
      (Tally.start.recordAll reference.letterCount (tableOutcome submission reference)
        (List.range (caseCount reference))).report := by
  rw [grade, run_eq fun _ _ => rfl]

/-- The log has the line of each case of the truth table, in order. -/
theorem log_grade :
    (grade submission reference).log =
      (List.range (caseCount reference)).map fun number =>
        (tableOutcome submission reference number).line reference.letterCount number := by
  rw [grade_eq, Tally.report, Tally.reversedLog_recordAll, List.reverse_append,
    List.reverse_reverse]
  exact List.nil_append _

/-- A number of cases with a property fits into a counter. -/
theorem toNat_countP_cases (counted : Nat → Bool) :
    (0 + UInt64.ofNat ((List.range (caseCount reference)).countP counted)).toNat =
      (List.range (caseCount reference)).countP counted := by
  have bound : (List.range (caseCount reference)).countP counted ≤ caseCount reference := by
    have all := List.countP_le_length (p := counted) (l := List.range (caseCount reference))
    rwa [List.length_range] at all
  have fits : (List.range (caseCount reference)).countP counted < UInt64.size :=
    Nat.lt_of_le_of_lt (Nat.le_trans bound (caseCount_le reference)) (by decide)
  rw [UInt64.zero_add, UInt64.toNat_ofNat_of_lt' fits]

/-- The correct cases of the truth table are counted. -/
theorem correct_grade :
    (grade submission reference).correct.toNat =
      (List.range (caseCount reference)).countP fun number =>
        (tableOutcome submission reference number).isCorrect := by
  rw [grade_eq, Tally.report, Tally.counter_recordAll _ _ fun tally => tally.correct_record _]
  exact toNat_countP_cases reference _

/-- The wrong cases of the truth table are counted. -/
theorem wrong_grade :
    (grade submission reference).wrong.toNat =
      (List.range (caseCount reference)).countP fun number =>
        (tableOutcome submission reference number).isWrong := by
  rw [grade_eq, Tally.report, Tally.counter_recordAll _ _ fun tally => tally.wrong_record _]
  exact toNat_countP_cases reference _

/-- The verdict is the last one that a case of the truth table writes; if none does, the
submission is accepted. -/
theorem verdict_grade :
    (grade submission reference).verdict =
      ((List.range (caseCount reference)).filterMap fun number =>
        (tableOutcome submission reference number).verdict?).getLast?.getD .accepted := by
  rw [grade_eq, Tally.report, Tally.verdict_recordAll]
  rfl

/-- Where the submission reads letters of the reference only, each case compares the meanings. -/
theorem tableOutcome_of_subset {submission reference : Circuit}
    (known : submission.leaves ⊆ reference.leaves) (number : Nat) :
    tableOutcome submission reference number =
      .answered (submission.denote (Letter.numbered reference.letters.toList number))
        (reference.denote (Letter.numbered reference.letters.toList number)) := by
  rw [tableOutcome, Circuit.firstOutside?_eq_none.mpr known]

/-- Where the submission reads another letter, no case has a value. -/
theorem tableOutcome_of_outside {submission reference : Circuit} {letter : Letter}
    (outside : submission.firstOutside? reference.leaves = some letter) (number : Nat) :
    tableOutcome submission reference number = .submissionFailed (.unassigned letter) := by
  rw [tableOutcome, outside]

/-- A submission reads another letter than the reference, or letters of the reference only. -/
theorem exists_outside_iff {submission reference : Circuit} :
    (∃ letter, submission.firstOutside? reference.leaves = some letter) ↔
      ¬submission.leaves ⊆ reference.leaves := by
  rw [← Option.isSome_iff_exists, Option.isSome_iff_ne_none, ne_eq,
    Circuit.firstOutside?_eq_none]

/-- The entry of a case in the log is its line in the truth table. -/
theorem log_grade_getElem? {number : Nat} (inside : number < caseCount reference) :
    (grade submission reference).log[number]? =
      some ((tableOutcome submission reference number).line reference.letterCount number) := by
  rw [log_grade, List.getElem?_map, List.getElem?_range inside, Option.map_some]

/-- The line of a compared case shows the values of the listed letters in their order. -/
theorem line_answered {order : List Letter} (distinct : order.Nodup) (number : Nat)
    (submitted expected : Bool) :
    (Outcome.answered submitted expected).line order.length number =
      (if submitted = expected then "Correct" else "Wrong") ++ " answer on test case " ++
        Text.decimalString (number + 1) ++ " (" ++
        String.ofList (order.map fun letter =>
          if Letter.numbered order number letter then '1' else '0') ++
        ")! Contestant: " ++ (if submitted then "1" else "0") ++ ", Judge: " ++
        (if expected then "1" else "0") ++ "." := by
  rw [← Letter.binary_eq_map distinct]
  rfl

section Known

variable {submission reference : Circuit} (known : submission.leaves ⊆ reference.leaves)

include known

/-- The correct cases are those on which the meanings agree. -/
theorem correct_grade_of_subset :
    (grade submission reference).correct.toNat =
      (List.range (caseCount reference)).countP fun number =>
        submission.denote (Letter.numbered reference.letters.toList number) ==
          reference.denote (Letter.numbered reference.letters.toList number) := by
  simp only [correct_grade, tableOutcome_of_subset known, Outcome.isCorrect]

/-- The wrong cases are those on which the meanings differ. -/
theorem wrong_grade_of_subset :
    (grade submission reference).wrong.toNat =
      (List.range (caseCount reference)).countP fun number =>
        submission.denote (Letter.numbered reference.letters.toList number) !=
          reference.denote (Letter.numbered reference.letters.toList number) := by
  simp only [wrong_grade, tableOutcome_of_subset known, Outcome.isWrong]

/-- Every case is correct or wrong. -/
theorem correct_add_wrong_grade :
    (grade submission reference).correct.toNat + (grade submission reference).wrong.toNat =
      caseCount reference := by
  let agrees := fun number =>
    submission.denote (Letter.numbered reference.letters.toList number) ==
      reference.denote (Letter.numbered reference.letters.toList number)
  have split := List.length_eq_countP_add_countP agrees (l := List.range (caseCount reference))
  have differs : (fun number => decide ¬agrees number = true) = fun number => !agrees number := by
    funext number
    cases agrees number <;> rfl
  rw [List.length_range, differs] at split
  rw [correct_grade_of_subset known, wrong_grade_of_subset known]
  exact split.symm

/-- The sum of the counters does not overflow. -/
theorem toNat_compared_grade :
    (grade submission reference).compared.toNat = caseCount reference := by
  have fits : caseCount reference < 2 ^ 64 :=
    Nat.lt_of_le_of_lt (caseCount_le reference) (by decide)
  rw [Report.compared, UInt64.toNat_add, correct_add_wrong_grade known, Nat.mod_eq_of_lt fits]

end Known

/-- The report of a grading is the comparison of two truth tables. The `k` letters of the
reference, in alphabetical order, take the binary digits of each number below `2 ^ k`, most
significant first, and each number has one entry in the log. If the submission reads letters of
the reference only, an entry shows these digits and both values, the counters count the entries of
either kind, and their sum does not overflow. Otherwise nothing is counted and every entry names
the first leaf of the submission that the reference does not read. -/
theorem grade_eq_truth_table :
    let report := grade submission reference
    let order := reference.letters.toList
    let valuation := Letter.numbered order
    let digit := fun value : Bool => if value then "1" else "0"
    (order.Pairwise (· < ·) ∧ (∀ letter, letter ∈ order ↔ letter ∈ reference.leaves) ∧
      1 ≤ order.length ∧ order.length ≤ 26) ∧
    (∀ number place, ∀ inside : place < order.length,
      valuation number order[place] = number.testBit (order.length - 1 - place)) ∧
    report.log.length = 2 ^ order.length ∧
    (submission.leaves ⊆ reference.leaves →
      (∀ number < 2 ^ order.length,
        let submitted := submission.denote (valuation number)
        let expected := reference.denote (valuation number)
        let digits := order.map fun letter => if valuation number letter then '1' else '0'
        report.log[number]? = some
          ((if submitted = expected then "Correct" else "Wrong") ++ " answer on test case " ++
            Text.decimalString (number + 1) ++ " (" ++ String.ofList digits ++
            ")! Contestant: " ++ digit submitted ++ ", Judge: " ++ digit expected ++ ".")) ∧
      report.correct.toNat = (List.range (2 ^ order.length)).countP (fun number =>
        submission.denote (valuation number) == reference.denote (valuation number)) ∧
      report.wrong.toNat = (List.range (2 ^ order.length)).countP (fun number =>
        submission.denote (valuation number) != reference.denote (valuation number)) ∧
      report.compared.toNat = 2 ^ order.length ∧
      report.correct.toNat + report.wrong.toNat = 2 ^ order.length) ∧
    (¬submission.leaves ⊆ reference.leaves →
      report.correct = 0 ∧ report.wrong = 0 ∧
      ∃ letter,
        submission.leaves.find? (fun letter => decide (letter ∉ reference.leaves)) =
          some letter ∧
        ∀ number < 2 ^ order.length,
          report.log[number]? = some
            ("Submission evaluation failed on test case " ++ Text.decimalString (number + 1) ++
              ". Error: " ++ ("Input " ++ String.ofList [letter.char] ++
                " doesn't exist amongst values") ++ ".")) := by
  intro report order valuation digit
  have distinct : order.Nodup := reference.letters.nodup_toList
  refine ⟨⟨reference.letters.pairwise_toList, fun _ => mem_order, reference.letterCount_pos,
    reference.letterCount_le⟩, fun number place inside =>
      Letter.numbered_getElem distinct number inside, ?_, ?_, ?_⟩
  · rw [log_grade, List.length_map, List.length_range]
    rfl
  · intro known
    refine ⟨fun number inside => ?_, correct_grade_of_subset known, wrong_grade_of_subset known,
      toNat_compared_grade known, correct_add_wrong_grade known⟩
    rw [log_grade_getElem? submission reference inside, tableOutcome_of_subset known]
    exact congrArg some (line_answered distinct number _ _)
  · intro unknown
    obtain ⟨letter, outside⟩ := exists_outside_iff.mpr unknown
    have failed := tableOutcome_of_outside outside
    refine ⟨UInt64.toNat_inj.mp ?_, UInt64.toNat_inj.mp ?_, letter, outside, ?_⟩
    · rw [correct_grade]
      simp only [failed, Outcome.isCorrect, List.countP_false]
      rfl
    · rw [wrong_grade]
      simp only [failed, Outcome.isWrong, List.countP_false]
      rfl
    · intro number inside
      rw [log_grade_getElem? submission reference inside, failed]
      rfl

end Report

end CircuitGrading
