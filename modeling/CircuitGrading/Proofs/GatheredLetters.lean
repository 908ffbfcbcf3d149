import CircuitGrading.LetterSet.Gathering
import CircuitGrading.Proofs.Enumeration
import Mathlib.Data.Finset.Card

/-!
# Gathered letters

A packed set of letters stands for the finite set of its members (`LetterSet.members`), and it is
determined by them, since nothing else is stored. A step does to the members what it does to a
mathematical set (`members_after`), and so do any number of steps (`members_gathered`). Everything
that a set shows is a function of its members: the listing, the size, the test for members and the
text (`faithful_after_gathering`). The letters of a circuit are gathered from its leaves, of which
there is at most one more than there are gates.
-/

namespace CircuitGrading

namespace LetterSet

/-- The members as a finite set. -/
def members (set : LetterSet) : Finset Letter := set.toList.toFinset

/-- The members are the letters in the set. -/
@[simp] theorem mem_members {set : LetterSet} {letter : Letter} :
    letter ∈ set.members ↔ letter ∈ set := by
  rw [members, List.mem_toFinset, mem_toList]

/-- Sets with the same members are the same. -/
theorem members_inj {left right : LetterSet} : left.members = right.members ↔ left = right := by
  constructor
  · intro same
    apply ext
    intro letter
    rw [← mem_members, same, mem_members]
  · exact congrArg members

/-- The empty set has no members. -/
theorem members_empty : empty.members = ∅ := by
  apply Finset.eq_empty_of_forall_notMem
  intro letter
  rw [mem_members]
  exact not_mem_empty letter

/-- The size is the number of members. -/
theorem size_eq_card (set : LetterSet) : set.size = set.members.card :=
  (List.toFinset_card_of_nodup set.nodup_toList).symm

/-- A set is empty exactly if it has no members. -/
theorem isEmpty_iff {set : LetterSet} : set.isEmpty = true ↔ set.members = ∅ := by
  have storesNothing : set.isEmpty = true ↔ set = empty := by
    obtain ⟨bits⟩ := set
    rw [isEmpty, beq_iff_eq, empty, mk.injEq]
  rw [storesNothing, ← members_inj, members_empty]

/-- Adding the letters of a list adds them to the members. -/
theorem members_insertAll (set : LetterSet) (letters : List Letter) :
    (set.insertAll letters).members = set.members ∪ letters.toFinset := by
  ext letter
  rw [mem_members, mem_insertAll, Finset.mem_union, mem_members, List.mem_toFinset]

/-- A step does to the members what it does to a mathematical set. -/
theorem members_after (set : LetterSet) (step : Gathering) :
    (set.after step).members = step.onMembers set.members := by
  cases step with
  | insert letter =>
    ext other
    simp [after, Gathering.onMembers, mem_iff]
  | extend letters => exact members_insertAll set letters
  | collect circuit =>
    have leaves : set.after (.collect circuit) = set.insertAll circuit.leaves :=
      circuit.addLetters_eq set
    rw [leaves, members_insertAll]
    rfl
  | renew letters =>
    have fresh := members_insertAll empty letters
    rw [members_empty, Finset.empty_union] at fresh
    exact fresh

/-- Steps in turn do to the members what they do to a mathematical set. -/
theorem members_foldl_after (set : LetterSet) (steps : List Gathering) :
    (steps.foldl after set).members = steps.foldl Gathering.onMembers set.members := by
  induction steps generalizing set with
  | nil => rfl
  | cons step rest ih => rw [List.foldl_cons, List.foldl_cons, ih, members_after]

/-- The members of a gathered set are the letters that are gathered. -/
theorem members_gathered (steps : List Gathering) :
    (gathered steps).members = Gathering.membersOf steps := by
  rw [gathered, members_foldl_after, members_empty]
  rfl

end LetterSet

namespace Circuit

/-- A circuit has at most one leaf more than it has gates. -/
theorem length_leaves_le (circuit : Circuit) : circuit.leaves.length ≤ circuit.size + 1 := by
  induction circuit with
  | input letter => exact Nat.le_refl 1
  | not child ih =>
    rw [leaves, size]
    omega
  | binary gate left right leftIH rightIH =>
    rw [leaves, size, List.length_append]
    omega

/-- The members of the letters of a circuit are its leaves. -/
theorem members_letters (circuit : Circuit) :
    circuit.letters.members = circuit.leaves.toFinset := by
  rw [letters, addLetters_eq, LetterSet.members_insertAll, LetterSet.members_empty,
    Finset.empty_union]

/-- A circuit reads no more letters than it has leaves. -/
theorem letterCount_le_length_leaves (circuit : Circuit) :
    circuit.letterCount ≤ circuit.leaves.length := by
  rw [letterCount, LetterSet.size_eq_card, members_letters]
  exact List.toFinset_card_le circuit.leaves

end Circuit

open Circuit LetterSet in
/-- After any steps a packed set of letters is the finite set that the same steps gather. It lists
exactly the members, in strictly increasing order and so without repetition; its size, its test for
emptiness and its test for members are those of the finite set; its text is the listed names with
commas between them; and steps gather the same packed set exactly if they gather the same members.
Gathering the letters of a circuit adds its leaves to any set, and a circuit has at least one
letter, at most twenty-six, and at most one more than it has gates. -/
theorem LetterSet.faithful_after_gathering :
    (∀ steps : List Gathering,
      let set := gathered steps
      let members := Gathering.membersOf steps
      (∃ listing : List Letter,
        set.toList = listing ∧ listing.Pairwise (· < ·) ∧ listing.Nodup ∧
        (∀ letter, letter ∈ listing ↔ letter ∈ members) ∧
        set.text = Text.commaSeparated (listing.map fun letter => [letter.char])) ∧
      set.size = members.card ∧
      (set.isEmpty = true ↔ members = ∅) ∧
      (∀ letter, set.contains letter = true ↔ letter ∈ members) ∧
      ∀ steps' : List Gathering, set = gathered steps' ↔ members = Gathering.membersOf steps') ∧
    ∀ circuit : Circuit,
      (∀ (set : LetterSet) (letter : Letter),
        letter ∈ circuit.addLetters set ↔ letter ∈ set ∨ letter ∈ circuit.leaves) ∧
      1 ≤ circuit.letterCount ∧ circuit.letterCount ≤ min 26 (circuit.size + 1) := by
  refine ⟨fun steps => ?_, fun circuit => ⟨fun set letter => ?_, circuit.letterCount_pos, ?_⟩⟩
  · intro set members
    have same : set.members = members := members_gathered steps
    have mem : ∀ letter, letter ∈ set ↔ letter ∈ members := by
      intro letter
      rw [← same, mem_members]
    refine ⟨⟨set.toList, rfl, set.pairwise_toList, set.nodup_toList, ?_, rfl⟩, ?_, ?_, mem, ?_⟩
    · intro letter
      rw [mem_toList, mem]
    · rw [size_eq_card, same]
    · rw [isEmpty_iff, same]
    · intro steps'
      rw [← members_inj, same, members_gathered]
  · rw [addLetters_eq, mem_insertAll]
  · have leaves := circuit.letterCount_le_length_leaves
    have gates := circuit.length_leaves_le
    exact Nat.le_min.mpr ⟨circuit.letterCount_le, Nat.le_trans leaves gates⟩

/-- Letters given twice and in any order leave no trace, and neither does what came before a list
that starts again. -/
example :
    LetterSet.gathered [.insert ⟨16⟩, .extend [⟨1⟩, ⟨25⟩, ⟨1⟩], .insert ⟨0⟩] =
      LetterSet.gathered [.insert ⟨7⟩, .renew [⟨25⟩, ⟨16⟩],
        .collect (.binary .or (.input ⟨1⟩) (.input ⟨0⟩))] := by
  decide

end CircuitGrading
