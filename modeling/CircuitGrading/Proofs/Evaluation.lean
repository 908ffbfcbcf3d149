import CircuitGrading.Circuit.Evaluation
import Mathlib.Data.List.Find

/-!
# Evaluation under partial assignments

The value of a circuit depends on its valuation at the leaves only (`denote_congr`). Evaluation
under a partial assignment is decided by the leaves as well: the first leaf without a value is the
error, and without such a leaf the value is the meaning of the circuit (`eval_eq`). A circuit is
therefore evaluated alike under assignments that agree on its leaves (`eval_congr`), and where
exactly the letters of a list have values it is refused for its first leaf that is not in the list
(`eval_of_known`). `eval_settled_by_leaves` puts together what decides an evaluation.
-/

namespace CircuitGrading

/-- The values of an assignment as a valuation of all letters; a letter without a value is false. -/
def Assignment.valuation (assignment : Assignment) (letter : Letter) : Bool :=
  (assignment.value? letter).getD false

/-- The assigned letters are those that have a value. -/
theorem Assignment.mem_assigned {assignment : Assignment} {letter : Letter} :
    letter ∈ assignment.assigned ↔ assignment.value? letter ≠ none := by
  rw [LetterSet.mem_iff, value?]
  cases assignment.assigned.contains letter <;> simp

namespace Circuit

/-- Valuations that agree on the leaves give a circuit the same value. -/
theorem denote_congr {circuit : Circuit} {first second : Letter → Bool}
    (same : ∀ letter ∈ circuit.leaves, first letter = second letter) :
    circuit.denote first = circuit.denote second := by
  induction circuit with
  | input letter => exact same letter (List.mem_singleton.mpr rfl)
  | not child ih => simp only [denote, ih same]
  | binary gate left right leftIH rightIH =>
    have leftSame := leftIH fun letter member => same letter (List.mem_append_left _ member)
    have rightSame := rightIH fun letter member => same letter (List.mem_append_right _ member)
    simp only [denote, leftSame, rightSame]

/-- The first leaf without a value under an assignment, from left to right. -/
def firstUnassigned? (assignment : Assignment) (circuit : Circuit) : Option Letter :=
  circuit.leaves.find? fun letter => (assignment.value? letter).isNone

/-- The first leaf without a value is looked for in the left operand before the right one. -/
theorem firstUnassigned?_binary (assignment : Assignment) (gate : BinaryGate)
    (left right : Circuit) :
    (binary gate left right).firstUnassigned? assignment =
      (left.firstUnassigned? assignment).or (right.firstUnassigned? assignment) := by
  simp only [firstUnassigned?, leaves, List.find?_append]

/-- Evaluation refuses the first leaf without a value; otherwise it gives the meaning of the
circuit under the values of the assignment. -/
theorem eval_eq (assignment : Assignment) (circuit : Circuit) :
    circuit.eval assignment =
      match circuit.firstUnassigned? assignment with
      | some letter => .error (.unassigned letter)
      | none => .ok (circuit.denote assignment.valuation) := by
  induction circuit with
  | input letter =>
    cases value : assignment.value? letter with
    | none => simp [eval, firstUnassigned?, leaves, value]
    | some value' => simp [eval, firstUnassigned?, leaves, denote, Assignment.valuation, value]
  | not child ih =>
    have sameLeaf : (not child).firstUnassigned? assignment = child.firstUnassigned? assignment :=
      rfl
    rw [eval, ih, sameLeaf]
    cases child.firstUnassigned? assignment <;> rfl
  | binary gate left right leftIH rightIH =>
    rw [eval, leftIH, rightIH, firstUnassigned?_binary]
    cases left.firstUnassigned? assignment with
    | some letter => rfl
    | none =>
      cases right.firstUnassigned? assignment with
      | some letter => rfl
      | none => simp only [Option.or, BinaryGate.apply_eq_connective, denote]

/-- A circuit has a value exactly if each of its leaves has one, and then its meaning under these
values. -/
theorem eval_eq_ok_iff {assignment : Assignment} {circuit : Circuit} {value : Bool} :
    circuit.eval assignment = .ok value ↔
      (∀ letter ∈ circuit.leaves, assignment.value? letter ≠ none) ∧
        circuit.denote assignment.valuation = value := by
  have complete : circuit.firstUnassigned? assignment = none ↔
      ∀ letter ∈ circuit.leaves, assignment.value? letter ≠ none := by
    simp only [firstUnassigned?, List.find?_eq_none, Option.isNone_iff_eq_none, ne_eq]
  rw [eval_eq, ← complete]
  cases circuit.firstUnassigned? assignment with
  | none => simp
  | some letter => simp

/-- Assignments that give the leaves the same values evaluate a circuit alike. -/
theorem eval_congr {circuit : Circuit} {first second : Assignment}
    (same : ∀ letter ∈ circuit.leaves, first.value? letter = second.value? letter) :
    circuit.eval first = circuit.eval second := by
  have sameLeaf : circuit.firstUnassigned? first = circuit.firstUnassigned? second :=
    List.find?_congr fun letter member => by rw [same letter member]
  have sameValue : circuit.denote first.valuation = circuit.denote second.valuation :=
    denote_congr fun letter member => by rw [Assignment.valuation, same letter member]; rfl
  rw [eval_eq, eval_eq, sameLeaf, sameValue]

/-- The first leaf that is not in a list of letters, from left to right. -/
def firstOutside? (known : List Letter) (circuit : Circuit) : Option Letter :=
  circuit.leaves.find? fun letter => decide (letter ∉ known)

/-- No leaf is outside exactly when every leaf is in the list. -/
theorem firstOutside?_eq_none {known : List Letter} {circuit : Circuit} :
    circuit.firstOutside? known = none ↔ circuit.leaves ⊆ known := by
  simp only [firstOutside?, List.find?_eq_none, decide_eq_true_eq, not_not, List.subset_def]

/-- Where exactly the letters of a list have values, evaluation refuses the first leaf outside
the list; otherwise it gives the meaning of the circuit under these values. -/
theorem eval_of_known {assignment : Assignment} {known : List Letter} {valuation : Letter → Bool}
    (values : ∀ letter,
      assignment.value? letter = if letter ∈ known then some (valuation letter) else none)
    (circuit : Circuit) :
    circuit.eval assignment =
      match circuit.firstOutside? known with
      | some letter => .error (.unassigned letter)
      | none => .ok (circuit.denote valuation) := by
  have sameLeaf : circuit.firstUnassigned? assignment = circuit.firstOutside? known :=
    List.find?_congr fun letter _ => by
      rw [values letter]
      by_cases member : letter ∈ known <;> simp [member]
  rw [eval_eq, sameLeaf]
  cases outside : circuit.firstOutside? known with
  | some letter => rfl
  | none =>
    have sameValue : circuit.denote assignment.valuation = circuit.denote valuation :=
      denote_congr fun letter member => by
        have listed : letter ∈ known := firstOutside?_eq_none.mp outside member
        rw [Assignment.valuation, values letter, if_pos listed, Option.getD_some]
    rw [sameValue]

/-- A leaf is the first one without a value exactly when it has none and the leaves to its left
have values. -/
theorem firstUnassigned?_eq_some_iff {assignment : Assignment} {circuit : Circuit}
    {letter : Letter} :
    circuit.firstUnassigned? assignment = some letter ↔
      ∃ before after, circuit.leaves = before ++ letter :: after ∧
        (∀ earlier ∈ before, assignment.value? earlier ≠ none) ∧
        assignment.value? letter = none := by
  simp only [firstUnassigned?, List.find?_eq_some_iff_append, Option.isNone_iff_eq_none,
    Bool.not_eq_true', Option.isNone_eq_false_iff, Option.isSome_iff_ne_none]
  constructor
  · rintro ⟨missing, before, after, split, valued⟩
    exact ⟨before, after, split, valued, missing⟩
  · rintro ⟨before, after, split, valued, missing⟩
    exact ⟨missing, before, after, split, valued⟩

/-- The leaves settle an evaluation. If all of them have values, the result is the truth value of
the circuit under these; otherwise it is the refusal of the first leaf without a value, from left to
right, also where a gate has its output from the other operand. So a circuit has a value exactly if
all of its letters are assigned, and assignments that agree on its letters evaluate it alike. -/
theorem eval_settled_by_leaves (assignment : Assignment) (circuit : Circuit) :
    ((∀ letter ∈ circuit.leaves, assignment.value? letter ≠ none) →
      circuit.eval assignment = .ok (circuit.denote assignment.valuation)) ∧
    ((∃ letter ∈ circuit.leaves, assignment.value? letter = none) →
      ∃ before letter after, circuit.leaves = before ++ letter :: after ∧
        (∀ earlier ∈ before, assignment.value? earlier ≠ none) ∧
        assignment.value? letter = none ∧
        circuit.eval assignment = .error (.unassigned letter)) ∧
    ((∃ value, circuit.eval assignment = .ok value) ↔
      ∀ letter ∈ circuit.letters, letter ∈ assignment.assigned) ∧
    ∀ other : Assignment,
      (∀ letter ∈ circuit.letters, assignment.value? letter = other.value? letter) →
        circuit.eval assignment = circuit.eval other := by
  refine ⟨fun valued => eval_eq_ok_iff.mpr ⟨valued, rfl⟩, ?_, ?_, fun other same => ?_⟩
  · rintro ⟨leaf, member, missing⟩
    have refused := eval_eq assignment circuit
    cases first : circuit.firstUnassigned? assignment with
    | none =>
      have valued := List.find?_eq_none.mp first leaf member
      exact absurd (Option.isNone_iff_eq_none.mpr missing) valued
    | some letter =>
      rw [first] at refused
      obtain ⟨before, after, split, valued, none⟩ := firstUnassigned?_eq_some_iff.mp first
      exact ⟨before, letter, after, split, valued, none, refused⟩
  · simp only [mem_letters, Assignment.mem_assigned]
    constructor
    · rintro ⟨value, done⟩
      exact (eval_eq_ok_iff.mp done).1
    · intro valued
      exact ⟨_, eval_eq_ok_iff.mpr ⟨valued, rfl⟩⟩
  · exact eval_congr fun letter member => same letter (mem_letters.mpr member)

/-- A disjunction is refused for a letter of its right operand although its left operand is true;
with values for all letters it has its truth value. -/
theorem eval_settled_by_leaves_forced_output :
    let circuit := binary .or (input ⟨0⟩) (binary .xnor (input ⟨2⟩) (input ⟨1⟩))
    let partly := Assignment.ofList [(⟨0⟩, true)]
    let fully := Assignment.ofList [(⟨0⟩, false), (⟨1⟩, true), (⟨2⟩, false)]
    circuit.eval partly = .error (.unassigned ⟨2⟩) ∧
      circuit.eval fully = .ok (circuit.denote fully.valuation) := by
  intro circuit partly fully
  refine ⟨?_, (eval_settled_by_leaves fully circuit).1 (by decide)⟩
  obtain ⟨before, letter, after, split, valued, missing, refused⟩ :=
    (eval_settled_by_leaves partly circuit).2.1 ⟨⟨2⟩, by decide, by decide⟩
  have first : circuit.firstUnassigned? partly = some letter :=
    firstUnassigned?_eq_some_iff.mpr ⟨before, after, split, valued, missing⟩
  have third : circuit.firstUnassigned? partly = some ⟨2⟩ := by decide
  obtain rfl : letter = ⟨2⟩ := Option.some.inj (first.symm.trans third)
  exact refused

end Circuit

end CircuitGrading
