import CircuitGrading.Proofs.Equivalence
import CircuitGrading.Proofs.Valuations

/-!
# Idle letters of a reference

A reference may read letters that do not matter to its meaning. Each of them doubles the number
of cases, and since it may come anywhere in the alphabet, the cases with equal outcomes are not next
to one another. But the counts of a report are counts of valuations (`countP_cases_of_subset`), so
both counts are multiplied by the same power of two and the verdict stays (`grade_of_idle_letters`):
the share of correct cases does not depend on idle letters.
-/

namespace CircuitGrading

open Grading

/-- How two circuits compare depends on the letters of the second one only, if the first one reads
no others. -/
theorem Circuit.dependsOn_compare {first second : Circuit} (known : first.leaves ⊆ second.leaves)
    (compare : Bool → Bool → Bool) :
    DependsOn (fun valuation => compare (first.denote valuation) (second.denote valuation))
      {letter | letter ∈ second.leaves} := by
  intro valuation valuation' same
  have firstSame : first.denote valuation = first.denote valuation' :=
    denote_congr fun letter member => same letter (known member)
  have secondSame : second.denote valuation = second.denote valuation' := denote_congr same
  simp only [firstSame, secondSame]

variable {submission reference reference' : Circuit}

/-- A property that depends on the letters of a reference only holds more often on the cases of a
reference with further letters: once for each choice of values for these letters. -/
theorem countP_cases_of_subset (more : reference.leaves ⊆ reference'.leaves)
    {test : (Letter → Bool) → Bool}
    (depends : DependsOn test {letter | letter ∈ reference.leaves}) :
    (List.range (caseCount reference')).countP
        (fun number => test (Letter.numbered reference'.letters.toList number)) =
      2 ^ (reference'.letterCount - reference.letterCount) *
        (List.range (caseCount reference)).countP
          fun number => test (Letter.numbered reference.letters.toList number) := by
  have dependsOrder : DependsOn test {letter | letter ∈ reference.letters.toList} :=
    depends.mono fun letter read => mem_order.mpr read
  have dependsOrder' : DependsOn test {letter | letter ∈ reference'.letters.toList} :=
    depends.mono fun letter read => mem_order.mpr (more read)
  have further : reference.letters.toList.Sublist reference'.letters.toList :=
    LetterSet.toList_sublist fun letter member =>
      Circuit.mem_letters.mpr (more (Circuit.mem_letters.mp member))
  calc
    _ = (Letter.valuations reference'.letters.toList fun _ => false).countP test :=
      Letter.countP_range_eq _ dependsOrder'
    _ = 2 ^ (reference'.letterCount - reference.letterCount) *
        (Letter.valuations reference.letters.toList fun _ => false).countP test :=
      Letter.countP_valuations_of_sublist _ depends further reference'.letters.nodup_toList
        fun letter _ read => mem_order.mpr read
    _ = _ := by
      rw [← Letter.countP_range_eq _ dependsOrder]
      rfl

/-- Idle letters of the reference double both counts, each of them once, and leave the verdict as it
is. Here the second reference has the meaning of the first one and reads all its letters and
perhaps more, and the submission reads letters of the first reference only. -/
theorem grade_of_idle_letters (known : submission.leaves ⊆ reference.leaves)
    (more : reference.leaves ⊆ reference'.leaves)
    (meaning : ∀ valuation, reference.denote valuation = reference'.denote valuation) :
    let factor := 2 ^ (reference'.letterCount - reference.letterCount)
    (grade submission reference').correct.toNat =
        factor * (grade submission reference).correct.toNat ∧
      (grade submission reference').wrong.toNat =
        factor * (grade submission reference).wrong.toNat ∧
      (grade submission reference').verdict = (grade submission reference).verdict := by
  intro factor
  have known' : submission.leaves ⊆ reference'.leaves := fun _ member => more (known member)
  refine ⟨?_, ?_, ?_⟩
  · rw [correct_grade_of_subset known', correct_grade_of_subset known]
    simp only [← meaning]
    exact countP_cases_of_subset more (Circuit.dependsOn_compare known (· == ·))
  · rw [wrong_grade_of_subset known', wrong_grade_of_subset known]
    simp only [← meaning]
    exact countP_cases_of_subset more (Circuit.dependsOn_compare known (· != ·))
  · rw [verdict_grade_of_subset known', verdict_grade_of_subset known]
    refine if_congr ?_ rfl rfl
    rw [forall_cases_iff known', forall_cases_iff known]
    simp only [meaning]

/-- An idle letter between the two letters that matter: two of four cases become four of eight. -/
theorem grade_of_idle_letters_between :
    let a := Circuit.input ⟨0⟩
    let b := Circuit.input ⟨1⟩
    let c := Circuit.input ⟨2⟩
    let submission := Circuit.binary .and a c
    let reference := Circuit.binary .or a c
    let reference' := Circuit.binary .or a (.binary .and c (.binary .or (.not b) b))
    (grade submission reference).correct.toNat = 2 ∧
      (grade submission reference').correct.toNat = 4 ∧
      (grade submission reference').wrong.toNat = 2 * (grade submission reference).wrong.toNat ∧
      (grade submission reference').verdict = (grade submission reference).verdict := by
  intro a b c submission reference reference'
  have meaning : ∀ valuation, reference.denote valuation = reference'.denote valuation := by
    intro valuation
    simp only [reference, reference', a, b, c, Circuit.denote, BinaryGate.connective]
    cases valuation ⟨0⟩ <;> cases valuation ⟨1⟩ <;> cases valuation ⟨2⟩ <;> rfl
  have two : (grade submission reference).correct.toNat = 2 := by decide
  have factor : 2 ^ (reference'.letterCount - reference.letterCount) = 2 := by decide
  have known : submission.leaves ⊆ reference.leaves := by decide
  have more : reference.leaves ⊆ reference'.leaves := by decide
  obtain ⟨correct, wrong, verdict⟩ := grade_of_idle_letters known more meaning
  rw [factor] at correct wrong
  exact ⟨two, by rw [correct, two], wrong, verdict⟩

end CircuitGrading
