import CircuitGrading.Proofs.Equivalence
import Mathlib.Data.List.Basic

/-!
# What a report depends on

A report is the comparison of two truth tables, so it depends on the two circuits through little:
the letters and the meaning of the reference, the first leaf of the submission outside these
letters, and the meaning of the submission if there is no such leaf (`grade_congr`). Where the
submission reads another letter, the verdict and the counts do not depend on anything else
(`grade_of_outside`), and circuits with the same letters and the same meaning accept each other
on every case (`grade_of_same_meaning`). So circuits may be written in another way without any
change to the report (`grade_eq_of_same_meaning`). Reports that differ can still be compared case by
case: cases that write the same verdicts give the same verdict and the same counts
(`counts_grade_congr`), and a relation between the lines of each case is one between the logs
(`forall₂_log_grade`).
-/

namespace CircuitGrading

open Grading

namespace Circuit

/-- Only the members of the list of known letters matter to the first leaf outside it. -/
theorem firstOutside?_congr {known known' : List Letter}
    (same : ∀ letter, letter ∈ known ↔ letter ∈ known') (circuit : Circuit) :
    circuit.firstOutside? known = circuit.firstOutside? known' :=
  List.find?_congr fun letter _ => by simp only [same letter]

/-- The first leaf outside is a leaf, and it is outside. -/
theorem of_firstOutside?_eq_some {known : List Letter} {circuit : Circuit} {letter : Letter}
    (found : circuit.firstOutside? known = some letter) :
    letter ∈ circuit.leaves ∧ letter ∉ known := by
  have outside := List.find?_some found
  exact ⟨List.mem_of_find?_eq_some found, of_decide_eq_true outside⟩

/-- Circuits with the same letters have the same letters at their leaves. -/
theorem mem_leaves_iff_of_letters_eq {first second : Circuit}
    (letters : first.letters = second.letters) (letter : Letter) :
    letter ∈ first.leaves ↔ letter ∈ second.leaves := by
  rw [← mem_letters, letters, mem_letters]

/-- Circuits have the same letters exactly if each reads letters of the other one only. -/
theorem letters_eq_iff {first second : Circuit} :
    first.letters = second.letters ↔
      first.leaves ⊆ second.leaves ∧ second.leaves ⊆ first.leaves := by
  constructor
  · intro letters
    have same := mem_leaves_iff_of_letters_eq letters
    exact ⟨fun letter => (same letter).mp, fun letter => (same letter).mpr⟩
  · rintro ⟨forward, backward⟩
    apply LetterSet.ext
    intro letter
    rw [mem_letters, mem_letters]
    exact ⟨fun member => forward member, fun member => backward member⟩

/-- Circuits with the same letters have equally many. -/
theorem letterCount_eq_of_letters_eq {first second : Circuit}
    (letters : first.letters = second.letters) : first.letterCount = second.letterCount := by
  rw [letterCount, letters, letterCount]

end Circuit

/-- Outcomes that agree on the recorded numbers leave the same tally. -/
theorem Tally.recordAll_congr {outcomes outcomes' : Nat → Outcome} {numbers : List Nat}
    (same : ∀ number ∈ numbers, outcomes number = outcomes' number) (tally : Tally) (width : Nat) :
    tally.recordAll width outcomes numbers = tally.recordAll width outcomes' numbers :=
  List.foldl_ext _ _ tally fun _ number member => by rw [same number member]

section Congruence

variable {submission submission' reference reference' : Circuit}
  (letters : reference.letters = reference'.letters)
  (meaning : ∀ valuation, reference.denote valuation = reference'.denote valuation)
  (outside : submission.firstOutside? reference.leaves =
    submission'.firstOutside? reference.leaves)
  (same : submission.leaves ⊆ reference.leaves →
    ∀ valuation, submission.denote valuation = submission'.denote valuation)

include letters meaning outside same

/-- The outcome of a case depends on the letters and the meaning of the reference, on the first
leaf of the submission outside these letters, and if there is none on the submission's meaning. -/
theorem tableOutcome_congr (number : Nat) :
    tableOutcome submission reference number = tableOutcome submission' reference' number := by
  have outside' : submission'.firstOutside? reference'.leaves =
      submission.firstOutside? reference.leaves := by
    rw [outside]
    exact submission'.firstOutside?_congr fun letter =>
      (Circuit.mem_leaves_iff_of_letters_eq letters letter).symm
  rw [tableOutcome, tableOutcome, outside']
  cases first : submission.firstOutside? reference.leaves with
  | some letter => rfl
  | none =>
    have known : submission.leaves ⊆ reference.leaves := Circuit.firstOutside?_eq_none.mp first
    simp only [letters, meaning, same known]

/-- A report depends on the letters and the meaning of the reference, on the first leaf of the
submission outside these letters, and if there is none on the submission's meaning. -/
theorem grade_congr : grade submission reference = grade submission' reference' := by
  have width : reference.letterCount = reference'.letterCount :=
    Circuit.letterCount_eq_of_letters_eq letters
  have cases : caseCount reference = caseCount reference' := congrArg (Nat.pow 2) width
  have outcomes : ∀ number ∈ List.range (caseCount reference),
      tableOutcome submission reference number = tableOutcome submission' reference' number :=
    fun number _ => tableOutcome_congr letters meaning outside same number
  rw [grade_eq, grade_eq, ← width, ← cases, Tally.recordAll_congr outcomes]

end Congruence

namespace Outcome

/-- The correct outcomes are those that write no verdict. -/
theorem isCorrect_eq (outcome : Outcome) :
    outcome.isCorrect = decide (outcome.verdict? = none) := by
  cases outcome with
  | answered submitted expected => cases submitted <;> cases expected <;> rfl
  | submissionFailed error => rfl
  | referenceFailed error => rfl

/-- The wrong outcomes are those that write that the answer is wrong. -/
theorem isWrong_eq (outcome : Outcome) :
    outcome.isWrong = decide (outcome.verdict? = some .wrongAnswer) := by
  cases outcome with
  | answered submitted expected => cases submitted <;> cases expected <;> rfl
  | submissionFailed error => rfl
  | referenceFailed error => rfl

end Outcome

section Corresponding

variable {submission submission' reference reference' : Circuit}
  (width : reference.letterCount = reference'.letterCount)

include width

/-- Two gradings whose cases write the same verdicts have the same verdict and the same counts. -/
theorem counts_grade_congr
    (verdict : ∀ number, (tableOutcome submission reference number).verdict? =
      (tableOutcome submission' reference' number).verdict?) :
    (grade submission reference).verdict = (grade submission' reference').verdict ∧
      (grade submission reference).correct = (grade submission' reference').correct ∧
      (grade submission reference).wrong = (grade submission' reference').wrong := by
  have cases : caseCount reference = caseCount reference' := congrArg (Nat.pow 2) width
  refine ⟨?_, UInt64.toNat_inj.mp ?_, UInt64.toNat_inj.mp ?_⟩
  · simp only [verdict_grade, cases, verdict]
  · simp only [correct_grade, cases, Outcome.isCorrect_eq, verdict]
  · simp only [wrong_grade, cases, Outcome.isWrong_eq, verdict]

/-- The logs of two gradings are related entry by entry if the lines of each case are. -/
theorem forall₂_log_grade {related : String → String → Prop}
    (lines : ∀ number,
      related ((tableOutcome submission reference number).line reference.letterCount number)
        ((tableOutcome submission' reference' number).line reference'.letterCount number)) :
    List.Forall₂ related (grade submission reference).log (grade submission' reference').log := by
  have cases : caseCount reference = caseCount reference' := congrArg (Nat.pow 2) width
  rw [log_grade, log_grade, ← cases, List.forall₂_map_left_iff, List.forall₂_map_right_iff,
    List.forall₂_same]
  intro number _
  exact lines number

end Corresponding

section Special

variable {submission reference : Circuit}

/-- A submission that reads another letter fails without any correct or wrong case. -/
theorem grade_of_outside {letter : Letter}
    (outside : submission.firstOutside? reference.leaves = some letter) :
    (grade submission reference).verdict = .runtimeError ∧
      (grade submission reference).correct = 0 ∧ (grade submission reference).wrong = 0 := by
  have failed := tableOutcome_of_outside outside
  refine ⟨verdict_grade_of_outside outside, UInt64.toNat_inj.mp ?_, UInt64.toNat_inj.mp ?_⟩
  · rw [correct_grade]
    simp only [failed, Outcome.isCorrect, List.countP_false]
    rfl
  · rw [wrong_grade]
    simp only [failed, Outcome.isWrong, List.countP_false]
    rfl

/-- A submission with the letters of the reference only and with its meaning is correct on every
case. -/
theorem grade_of_same_meaning (known : submission.leaves ⊆ reference.leaves)
    (meaning : ∀ valuation, submission.denote valuation = reference.denote valuation) :
    (grade submission reference).verdict = .accepted ∧
      (grade submission reference).correct.toNat = 2 ^ reference.letterCount ∧
      (grade submission reference).wrong = 0 := by
  have agree := (forall_cases_iff known).mpr meaning
  have correct : (grade submission reference).correct.toNat = caseCount reference := by
    have all : (List.range (caseCount reference)).countP (fun number =>
        submission.denote (Letter.numbered reference.letters.toList number) ==
          reference.denote (Letter.numbered reference.letters.toList number)) =
        (List.range (caseCount reference)).length :=
      List.countP_eq_length.mpr fun number inside =>
        beq_iff_eq.mpr (agree number (List.mem_range.mp inside))
    rw [correct_grade_of_subset known, all, List.length_range]
  have wrong : (grade submission reference).wrong.toNat = 0 := by
    have total := correct_add_wrong_grade known
    omega
  refine ⟨?_, correct, UInt64.toNat_inj.mp wrong⟩
  rw [verdict_grade_of_subset known, if_pos agree]

end Special

/-- A report depends on meanings and not on how circuits are written. The references have the same
letters and the same meaning. The submissions either read letters of the references only and have
the same meaning, or both read another letter and the first such leaf, from left to right, is the
same. Then the whole reports are the same. -/
theorem grade_eq_of_same_meaning {submission submission' reference reference' : Circuit}
    (letters : reference.letters = reference'.letters)
    (meaning : ∀ valuation, reference.denote valuation = reference'.denote valuation)
    (alike :
      (submission.leaves ⊆ reference.leaves ∧ submission'.leaves ⊆ reference.leaves ∧
        ∀ valuation, submission.denote valuation = submission'.denote valuation) ∨
      ∃ letter, submission.firstOutside? reference.leaves = some letter ∧
        submission'.firstOutside? reference.leaves = some letter) :
    grade submission reference = grade submission' reference' := by
  rcases alike with ⟨known, known', same⟩ | ⟨letter, outside, outside'⟩
  · have complete := Circuit.firstOutside?_eq_none.mpr known
    have complete' := Circuit.firstOutside?_eq_none.mpr known'
    exact grade_congr letters meaning (complete.trans complete'.symm) fun _ => same
  · -- No submission has a value, so its meaning does not matter.
    have unknown := exists_outside_iff.mp ⟨letter, outside⟩
    exact grade_congr letters meaning (outside.trans outside'.symm) fun known =>
      absurd known unknown

/-- The exclusive disjunction written in two ways, for submissions with the value of a conjunction
and for submissions that lack the same letter first. -/
theorem grade_eq_of_same_meaning_rewritten :
    let a := Circuit.input ⟨0⟩
    let b := Circuit.input ⟨1⟩
    let c := Circuit.input ⟨2⟩
    let d := Circuit.input ⟨3⟩
    let reference := Circuit.binary .xor a b
    let reference' := Circuit.binary .or (.binary .and (.not b) a) (.binary .and b (.not a))
    let report := grade (.binary .and a b) reference
    let failure := grade (.binary .or a (.binary .and c d)) reference
    (report = grade (.binary .nor (.not a) (.not b)) reference' ∧
      report.verdict = .wrongAnswer ∧ report.correct = 1 ∧ report.wrong = 3 ∧
      report.log[1]? = some "Wrong answer on test case 2 (01)! Contestant: 0, Judge: 1.") ∧
    failure = grade (.binary .nand (.not c) (.not c)) reference' ∧
      failure.verdict = .runtimeError ∧
      failure.log[3]? = some ("Submission evaluation failed on test case 4. " ++
        "Error: Input C doesn't exist amongst values.") := by
  intro a b c d reference reference' report failure
  have letters : reference.letters = reference'.letters := by decide
  have meaning : ∀ valuation, reference.denote valuation = reference'.denote valuation := by
    intro valuation
    simp only [reference, reference', a, b, Circuit.denote, BinaryGate.connective]
    cases valuation ⟨0⟩ <;> cases valuation ⟨1⟩ <;> rfl
  have same : ∀ valuation, (Circuit.binary .and a b).denote valuation =
      (Circuit.binary .nor (.not a) (.not b)).denote valuation := by
    intro valuation
    simp only [a, b, Circuit.denote, BinaryGate.connective]
    cases valuation ⟨0⟩ <;> cases valuation ⟨1⟩ <;> rfl
  refine ⟨⟨?_, ?_⟩, ?_, ?_⟩
  · exact grade_eq_of_same_meaning letters meaning (Or.inl ⟨by decide, by decide, same⟩)
  · decide +kernel
  · exact grade_eq_of_same_meaning letters meaning (Or.inr ⟨⟨2⟩, by decide, by decide⟩)
  · decide +kernel

end CircuitGrading
