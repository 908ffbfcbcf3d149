import CircuitGrading.Circuit.Commuted
import CircuitGrading.Circuit.Fingerprint
import CircuitGrading.Proofs.Dependence
import Mathlib.Logic.Relation

/-!
# The order of operands

Commuted circuits are those that a number of exchanges leads from one to the other, each of the
operands of one gate (`commuted_iff_exchanges`). A quantity that is computed from the leaves
upwards, and at each gate without regard to the order of its operands, is the same for both
(`Commuted.eq_of_symmetric`): the fingerprint, the numbers of gates and the depth, the letters and
the meaning are of this kind. The order shows only in the letter that an evaluation refuses first,
so a report on one circuit is a report on the other unless two different letters are missing
(`Commuted.indistinguishable`).
-/

namespace CircuitGrading.Circuit

/-- The operands of one binary gate are exchanged. -/
inductive Exchange : Circuit → Circuit → Prop where
  /-- The gate is at the root. -/
  | root (gate : BinaryGate) (left right : Circuit) :
      Exchange (binary gate left right) (binary gate right left)
  /-- The gate is below a negation. -/
  | not {child child' : Circuit} : Exchange child child' → Exchange (not child) (not child')
  /-- The gate is in the left operand of another one. -/
  | left (gate : BinaryGate) {left left' : Circuit} (right : Circuit) :
      Exchange left left' → Exchange (binary gate left right) (binary gate left' right)
  /-- The gate is in the right operand of another one. -/
  | right (gate : BinaryGate) (left : Circuit) {right right' : Circuit} :
      Exchange right right' → Exchange (binary gate left right) (binary gate left right')

/-- An exchange leads to a commuted circuit. -/
theorem Exchange.commuted {first second : Circuit} (exchange : Exchange first second) :
    Commuted first second := by
  induction exchange with
  | root gate left right => exact .crossed gate (.refl left) (.refl right)
  | not _ ih => exact .not ih
  | left gate right _ ih => exact .straight gate ih (.refl right)
  | right gate left _ ih => exact .straight gate (.refl left) ih

/-- Exchanges in both operands of a gate are exchanges in the circuit. -/
theorem exchanges_binary (gate : BinaryGate) {left left' right right' : Circuit}
    (first : Relation.ReflTransGen Exchange left left')
    (second : Relation.ReflTransGen Exchange right right') :
    Relation.ReflTransGen Exchange (binary gate left right) (binary gate left' right') := by
  have inLeft : Relation.ReflTransGen Exchange (binary gate left right)
      (binary gate left' right) :=
    first.lift (fun operand => binary gate operand right) fun _ _ => .left gate right
  have inRight : Relation.ReflTransGen Exchange (binary gate left' right)
      (binary gate left' right') :=
    second.lift (binary gate left') fun _ _ => .right gate left'
  exact inLeft.trans inRight

/-- Circuits are commuted exactly when exchanges lead from one to the other. -/
theorem commuted_iff_exchanges {first second : Circuit} :
    Commuted first second ↔ Relation.ReflTransGen Exchange first second := by
  constructor
  · intro commuted
    induction commuted with
    | input letter => exact .refl
    | not _ ih => exact ih.lift not fun _ _ => .not
    | straight gate _ _ leftIH rightIH => exact exchanges_binary gate leftIH rightIH
    | crossed gate _ _ leftIH rightIH =>
      exact (exchanges_binary gate leftIH rightIH).tail (.root gate _ _)
  · intro exchanges
    induction exchanges with
    | refl => exact .refl first
    | tail _ exchange ih => exact ih.trans exchange.commuted

namespace Commuted

variable {first second : Circuit}

/-- What is computed from the leaves upwards by operations that are symmetric in the operands of
each gate is the same for commuted circuits. -/
theorem eq_of_symmetric {α : Type} (commuted : Commuted first second) (quantity : Circuit → α)
    (negate : α → α) (combine : BinaryGate → α → α → α)
    (not : ∀ child, quantity (.not child) = negate (quantity child))
    (binary : ∀ gate left right,
      quantity (.binary gate left right) = combine gate (quantity left) (quantity right))
    (symmetric : ∀ gate left right, combine gate left right = combine gate right left) :
    quantity first = quantity second := by
  induction commuted with
  | input letter => rfl
  | not _ ih => rw [not, not, ih]
  | straight gate _ _ leftIH rightIH => rw [binary, binary, leftIH, rightIH]
  | crossed gate _ _ leftIH rightIH => rw [binary, binary, leftIH, rightIH, symmetric]

variable (commuted : Commuted first second)

include commuted

/-- The fingerprint puts the smaller operand first. -/
theorem fingerprint_eq : first.fingerprint = second.fingerprint :=
  commuted.eq_of_symmetric fingerprint (fun child => Text.fnv1a (notDescription child))
    (fun gate left right => Text.fnv1a (binaryDescription gate left right)) (fun _ => rfl)
    (fun _ _ _ => rfl) fun gate left right =>
      congrArg Text.fnv1a (binaryDescription_comm gate left right)

/-- The number of gates adds up over the operands. -/
theorem size_eq : first.size = second.size :=
  commuted.eq_of_symmetric size (1 + ·) (fun _ left right => 1 + left + right) (fun _ => rfl)
    (fun _ _ _ => rfl) fun _ left right => Nat.add_right_comm 1 left right

/-- The deeper operand decides the depth. -/
theorem depth_eq : first.depth = second.depth :=
  commuted.eq_of_symmetric depth (1 + ·) (fun _ left right => 1 + max left right) (fun _ => rfl)
    (fun _ _ _ => rfl) fun _ left right => congrArg (1 + ·) (Nat.max_comm left right)

/-- All gates of both operands are looked at. -/
theorem isElementary_eq : first.isElementary = second.isElementary :=
  commuted.eq_of_symmetric isElementary id
    (fun gate left right => gate.isElementary && left && right)
    (fun _ => rfl) (fun _ _ _ => rfl) fun gate left right =>
      Bool.and_right_comm gate.isElementary left right

/-- The leaves are the same up to their order. -/
theorem mem_leaves_iff (letter : Letter) : letter ∈ first.leaves ↔ letter ∈ second.leaves :=
  iff_of_eq <| commuted.eq_of_symmetric (letter ∈ ·.leaves) id (fun _ left right => left ∨ right)
    (fun _ => rfl) (fun _ _ _ => propext List.mem_append) fun _ _ _ => propext Or.comm

/-- Every gate computes a symmetric connective. -/
theorem denote_eq (valuation : Letter → Bool) : first.denote valuation = second.denote valuation :=
  commuted.eq_of_symmetric (denote valuation) Bool.not BinaryGate.connective (fun _ => rfl)
    (fun _ _ _ => rfl) fun gate left right => by
      rw [← BinaryGate.apply_eq_connective, BinaryGate.apply_comm, BinaryGate.apply_eq_connective]

/-- The sets of letters are the same. -/
theorem letters_eq : first.letters = second.letters :=
  LetterSet.ext fun letter => by rw [mem_letters, mem_letters, commuted.mem_leaves_iff]

/-- One of the circuits reads known letters only if the other one does. -/
theorem leaves_subset_iff {known : List Letter} : first.leaves ⊆ known ↔ second.leaves ⊆ known := by
  simp only [List.subset_def, commuted.mem_leaves_iff]

/-- The same values come out under every assignment. -/
theorem eval_eq_ok_iff (assignment : Assignment) (value : Bool) :
    first.eval assignment = .ok value ↔ second.eval assignment = .ok value := by
  rw [Circuit.eval_eq_ok_iff, Circuit.eval_eq_ok_iff, commuted.denote_eq]
  simp only [commuted.mem_leaves_iff]

/-- Where the unknown leaves are all of one letter, the first of them is the same for both. -/
theorem firstOutside?_eq {known : List Letter}
    (single : ∀ letter ∈ first.leaves, ∀ letter' ∈ first.leaves,
      letter ∉ known → letter' ∉ known → letter = letter') :
    first.firstOutside? known = second.firstOutside? known := by
  cases inFirst : first.firstOutside? known with
  | none =>
    have known' := commuted.leaves_subset_iff.mp (firstOutside?_eq_none.mp inFirst)
    exact (firstOutside?_eq_none.mpr known').symm
  | some letter =>
    obtain ⟨member, unknown⟩ := of_firstOutside?_eq_some inFirst
    cases inSecond : second.firstOutside? known with
    | none =>
      have known' := commuted.leaves_subset_iff.mpr (firstOutside?_eq_none.mp inSecond)
      exact absurd (known' member) unknown
    | some letter' =>
      obtain ⟨member', unknown'⟩ := of_firstOutside?_eq_some inSecond
      rw [single letter member letter' ((commuted.mem_leaves_iff letter').mpr member') unknown
        unknown']

/-- As submissions, the circuits have the same verdict and the same counts. -/
theorem grade_submission_counts (reference : Circuit) :
    (grade first reference).verdict = (grade second reference).verdict ∧
      (grade first reference).correct = (grade second reference).correct ∧
      (grade first reference).wrong = (grade second reference).wrong := by
  cases inFirst : first.firstOutside? reference.leaves with
  | none =>
    have known := commuted.leaves_subset_iff.mp (firstOutside?_eq_none.mp inFirst)
    have same : grade first reference = grade second reference :=
      grade_congr rfl (fun _ => rfl) (inFirst.trans (firstOutside?_eq_none.mpr known).symm)
        fun _ => commuted.denote_eq
    rw [same]
    exact ⟨rfl, rfl, rfl⟩
  | some letter =>
    have unknown := mt commuted.leaves_subset_iff.mpr
      (exists_outside_iff.mp ⟨letter, inFirst⟩)
    obtain ⟨letter', inSecond⟩ := exists_outside_iff.mpr unknown
    obtain ⟨verdict, correct, wrong⟩ := grade_of_outside inFirst
    obtain ⟨verdict', correct', wrong'⟩ := grade_of_outside inSecond
    rw [verdict, correct, wrong, verdict', correct', wrong']
    exact ⟨rfl, rfl, rfl⟩

/-- Each circuit is an accepted submission for the other. -/
theorem grade_each_other :
    (grade first second).verdict = .accepted ∧
      (grade first second).correct.toNat = 2 ^ first.letterCount ∧
      (grade first second).wrong = 0 := by
  have known : first.leaves ⊆ second.leaves := fun letter => (commuted.mem_leaves_iff letter).mp
  rw [letterCount_eq_of_letters_eq commuted.letters_eq]
  exact grade_of_same_meaning known commuted.denote_eq

/-- The order of operands matters to the written form alone, and to which letter is reported
missing. Commuted circuits have the same fingerprint, size, depth, gates and letters, have the same
values under every assignment, and are accepted for each other with every case correct. As
submissions they have the same verdict and counts, and the same report unless two different letters
are missing from the reference; as references they lead to the same reports. -/
theorem indistinguishable :
    (first.fingerprint = second.fingerprint ∧ first.size = second.size ∧
      first.depth = second.depth ∧ first.isElementary = second.isElementary ∧
      first.letters = second.letters ∧ first.letterCount = second.letterCount) ∧
    (∀ assignment value,
      first.eval assignment = .ok value ↔ second.eval assignment = .ok value) ∧
    (∀ report ∈ [grade first second, grade second first],
      report.verdict = .accepted ∧ report.correct.toNat = 2 ^ first.letterCount ∧
        report.wrong = 0) ∧
    (∀ reference,
      ((grade first reference).verdict = (grade second reference).verdict ∧
        (grade first reference).correct = (grade second reference).correct ∧
        (grade first reference).wrong = (grade second reference).wrong) ∧
      ((∀ letter ∈ first.leaves, ∀ letter' ∈ first.leaves,
          letter ∉ reference.leaves → letter' ∉ reference.leaves → letter = letter') →
        grade first reference = grade second reference)) ∧
    ∀ submission, grade submission first = grade submission second := by
  have letterCount : first.letterCount = second.letterCount :=
    letterCount_eq_of_letters_eq commuted.letters_eq
  refine ⟨⟨commuted.fingerprint_eq, commuted.size_eq, commuted.depth_eq, commuted.isElementary_eq,
    commuted.letters_eq, letterCount⟩, commuted.eval_eq_ok_iff, ?_, fun reference =>
    ⟨commuted.grade_submission_counts reference, fun single => ?_⟩, fun submission => ?_⟩
  · intro report either
    rcases List.mem_pair.mp either with rfl | rfl
    · exact commuted.grade_each_other
    · rw [letterCount]
      exact commuted.symm.grade_each_other
  · exact grade_congr rfl (fun _ => rfl) (commuted.firstOutside?_eq single) fun _ =>
      commuted.denote_eq
  · exact grade_congr commuted.letters_eq commuted.denote_eq rfl fun _ _ => rfl

end Commuted

/-- Exchanges at two depths, and a reference that lacks the third of the letters. -/
theorem indistinguishable_exchanged_twice :
    let first := binary .and (not (input ⟨0⟩)) (binary .xor (input ⟨1⟩) (input ⟨2⟩))
    let second := binary .and (binary .xor (input ⟨2⟩) (input ⟨1⟩)) (not (input ⟨0⟩))
    let reference := binary .or (input ⟨0⟩) (input ⟨1⟩)
    Commuted first second ∧ first.fingerprint = second.fingerprint ∧
      (grade first second).correct.toNat = 8 ∧ grade first reference = grade second reference := by
  intro first second reference
  have commuted : Commuted first second :=
    .crossed .and (.not (.input ⟨0⟩)) (.crossed .xor (.input ⟨1⟩) (.input ⟨2⟩))
  have single : ∀ letter ∈ first.leaves, ∀ letter' ∈ first.leaves,
      letter ∉ reference.leaves → letter' ∉ reference.leaves → letter = letter' := by decide
  obtain ⟨⟨fingerprint, -⟩, -, accepted, submissions, -⟩ := commuted.indistinguishable
  obtain ⟨-, correct, -⟩ := accepted (grade first second) List.mem_cons_self
  have eight : 2 ^ first.letterCount = 8 := by decide
  exact ⟨commuted, fingerprint, correct.trans eight, (submissions reference).2 single⟩

end CircuitGrading.Circuit
