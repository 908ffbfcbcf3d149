import CircuitGrading.Assignment.Update
import CircuitGrading.Proofs.Enumeration
import CircuitGrading.Proofs.Evaluation

/-!
# Assignments as partial maps

An assignment stores a partial map as two sets of letters. The sets say more than the map: a letter
without a value could still be stored as true, and two assignments that differ in such a letter only
would be different with the same values. No update leaves such a letter behind (`Proper`), so what
updates reach is determined by its values (`Proper.eq_of_value?_eq`). Since an update does to the
values what it does to a partial map (`value?_after`), the same holds after any number of updates
(`value?_reached`). `faithful_after_updates` says how much of the map an assignment shows: all of
it, and nothing of the way that led to it.
-/

namespace CircuitGrading.Assignment

/-- Give letters their values in turn. -/
def assignAll (assignment : Assignment) (values : List (Letter × Bool)) : Assignment :=
  values.foldl (fun assignment value => assignment.assign value.1 value.2) assignment

/-- Loading a number gives the letters its digits in turn. -/
theorem loadNumber_eq_assignAll (assignment : Assignment) (order : List Letter) (number : UInt64) :
    assignment.loadNumber order number = assignment.assignAll (Update.digits order number) := by
  induction order generalizing assignment with
  | nil => rfl
  | cons first rest ih =>
    have digit : decide (number.toNat / 2 ^ rest.length % 2 = 1) =
        number.toNat.testBit rest.length := Nat.testBit_eq_decide_div_mod_eq.symm
    have later : Update.digits (first :: rest) number =
        (first, number.toNat.testBit rest.length) :: Update.digits rest number := by
      simp only [Update.digits, List.zipIdx_cons', List.map_cons, List.map_map, List.length_cons,
        Nat.add_sub_cancel, Nat.sub_zero, digit]
      congr 1
      apply List.map_congr_left
      intro entry _
      have place : rest.length - (entry.2 + 1) = rest.length - 1 - entry.2 := by omega
      simp [place]
    rw [loadNumber, ih, later]
    rfl

section Values

/-- Giving a letter a value writes it into the map. -/
theorem value?_assign_eq_update (assignment : Assignment) (letter : Letter) (value : Bool) :
    (assignment.assign letter value).value? =
      Function.update assignment.value? letter (some value) := by
  funext other
  rw [value?_assign, Function.update_apply]

/-- Taking the value of a letter away removes it from the map. -/
theorem value?_unassign_eq_update (assignment : Assignment) (letter : Letter) :
    (assignment.unassign letter).value? = Function.update assignment.value? letter none := by
  funext other
  rw [value?_unassign, Function.update_apply]

/-- Giving letters their values in turn writes them into the map in turn. -/
theorem value?_assignAll (assignment : Assignment) (values : List (Letter × Bool)) :
    (assignment.assignAll values).value? = Update.writeAll assignment.value? values := by
  induction values generalizing assignment with
  | nil => rfl
  | cons value rest ih =>
    have later := ih (assignment.assign value.1 value.2)
    rw [value?_assign_eq_update] at later
    exact later

/-- The empty assignment has the map without values. -/
theorem value?_empty_eq : empty.value? = fun _ => none := funext value?_empty

/-- An update does to the values of an assignment what it does to a map. -/
theorem value?_after (assignment : Assignment) (update : Update) :
    (assignment.after update).value? = update.onMap assignment.value? := by
  cases update with
  | assign letter value => exact value?_assign_eq_update assignment letter value
  | unassign letter => exact value?_unassign_eq_update assignment letter
  | load order fits number =>
    show (assignment.loadNumber order number).value? = _
    rw [loadNumber_eq_assignAll, value?_assignAll]
    rfl
  | replace values =>
    have fresh := value?_assignAll empty values
    rw [value?_empty_eq] at fresh
    exact fresh

/-- Updates in turn do to the values of an assignment what they do to a map. -/
theorem value?_foldl_after (assignment : Assignment) (updates : List Update) :
    (updates.foldl after assignment).value? = updates.foldl Update.onMap assignment.value? := by
  induction updates generalizing assignment with
  | nil => rfl
  | cons update rest ih => rw [List.foldl_cons, List.foldl_cons, ih, value?_after]

/-- The values that updates reach are those of the map that they make. -/
theorem value?_reached (updates : List Update) :
    (reached updates).value? = Update.mapOf updates := by
  rw [reached, value?_foldl_after, value?_empty_eq]
  rfl

end Values

/-- No letter without a value is stored as true. -/
def Proper (assignment : Assignment) : Prop :=
  ∀ letter ∈ assignment.high, letter ∈ assignment.assigned

namespace Proper

/-- Nothing is stored in the empty assignment. -/
theorem empty : Proper Assignment.empty := by
  intro letter stored
  exact absurd stored (LetterSet.not_mem_empty letter)

variable {assignment : Assignment} (proper : assignment.Proper)

include proper

/-- A letter that is given a value has one, and every other letter is stored as before. -/
theorem assign (letter : Letter) (value : Bool) : (assignment.assign letter value).Proper := by
  intro other stored
  rw [mem_assigned, value?_assign]
  by_cases same : other = letter
  · rw [if_pos same]
    exact Option.some_ne_none value
  · have before : other ∈ assignment.high := by
      cases value <;> simpa [Assignment.assign, LetterSet.mem_iff, same] using stored
    rw [if_neg same, ← mem_assigned]
    exact proper other before

/-- A letter that loses its value is not stored as true any more, and every other letter is stored
as before. -/
theorem unassign (letter : Letter) : (assignment.unassign letter).Proper := by
  intro other stored
  have before : other ≠ letter ∧ other ∈ assignment.high := by
    simpa [Assignment.unassign, LetterSet.mem_iff] using stored
  rw [mem_assigned, value?_unassign, if_neg before.1, ← mem_assigned]
  exact proper other before.2

/-- Letters that are given values in turn have them. -/
theorem assignAll (values : List (Letter × Bool)) : (assignment.assignAll values).Proper := by
  induction values generalizing assignment with
  | nil => exact proper
  | cons value rest ih => exact ih (proper.assign value.1 value.2)

/-- No update leaves a letter without a value stored as true. -/
theorem after (update : Update) : (assignment.after update).Proper := by
  cases update with
  | assign letter value => exact proper.assign letter value
  | unassign letter => exact proper.unassign letter
  | load order fits number =>
    show (assignment.loadNumber order number).Proper
    rw [loadNumber_eq_assignAll]
    exact proper.assignAll _
  | replace values => exact Proper.empty.assignAll values

/-- Nor do updates in turn. -/
theorem foldl_after (updates : List Update) :
    (updates.foldl Assignment.after assignment).Proper := by
  induction updates generalizing assignment with
  | nil => exact proper
  | cons update rest ih => exact ih (proper.after update)

/-- The letters stored as true are those whose value is true. -/
theorem mem_high_iff {letter : Letter} :
    letter ∈ assignment.high ↔ assignment.value? letter = some true := by
  have before := proper letter
  rw [LetterSet.mem_iff, LetterSet.mem_iff] at before
  rw [LetterSet.mem_iff, value?]
  cases assigned : assignment.assigned.contains letter with
  | true => simp
  | false => simpa [assigned] using before

/-- The values determine what is stored. -/
theorem eq_of_value?_eq {assignment' : Assignment} (proper' : assignment'.Proper)
    (same : assignment.value? = assignment'.value?) : assignment = assignment' := by
  have assigned : assignment.assigned = assignment'.assigned := by
    apply LetterSet.ext
    intro letter
    rw [mem_assigned, mem_assigned, same]
  have high : assignment.high = assignment'.high := by
    apply LetterSet.ext
    intro letter
    rw [proper.mem_high_iff, proper'.mem_high_iff, same]
  obtain ⟨_, _⟩ := assignment
  obtain ⟨_, _⟩ := assignment'
  exact congr (congrArg Assignment.mk assigned) high

end Proper

/-- What updates reach stores no letter without a value as true. -/
theorem proper_reached (updates : List Update) : (reached updates).Proper :=
  Proper.empty.foldl_after updates

/-- The assigned letters with their values, in alphabetical order. -/
def pairs (assignment : Assignment) : List (Letter × Bool) :=
  assignment.assigned.toList.map fun letter => (letter, assignment.high.contains letter)

/-- Each letter comes once, in alphabetical order. -/
theorem pairwise_pairs (assignment : Assignment) :
    assignment.pairs.Pairwise fun first second => first.1 < second.1 :=
  List.pairwise_map.mpr assignment.assigned.pairwise_toList

/-- Exactly the values of the assignment are listed. -/
theorem mem_pairs {assignment : Assignment} {letter : Letter} {value : Bool} :
    (letter, value) ∈ assignment.pairs ↔ assignment.value? letter = some value := by
  simp only [pairs, List.mem_map, LetterSet.mem_toList, LetterSet.mem_iff, Prod.mk.injEq, value?]
  constructor
  · rintro ⟨listed, assigned, rfl, rfl⟩
    rw [if_pos assigned]
  · intro valued
    split at valued
    · rename_i assigned
      exact ⟨letter, assigned, rfl, Option.some.inj valued⟩
    · contradiction

/-- The text of an assignment is written from its letters with their values. -/
theorem text_eq (assignment : Assignment) :
    assignment.text = Text.commaSeparated (assignment.pairs.map fun (letter, value) =>
      [letter.char, '=', if value then '1' else '0']) := by
  rw [text, pairs, List.map_map]
  rfl

/-- After any updates an assignment is the partial map that the same updates make of the map without
values. No letter without a value is stored as true, every letter has the value that the map gives
it, the assigned letters are those where the map has a value, the text lists exactly the values of
the map in alphabetical order, and updates reach the same assignment exactly if they make the same
map. -/
theorem faithful_after_updates (updates : List Update) :
    let assignment := reached updates
    let map := Update.mapOf updates
    (∀ letter ∈ assignment.high, letter ∈ assignment.assigned) ∧
    (∀ letter, assignment.value? letter = map letter) ∧
    (∀ letter, letter ∈ assignment.assigned ↔ ∃ value, map letter = some value) ∧
    (∃ pairs : List (Letter × Bool),
      pairs.Pairwise (fun first second => first.1 < second.1) ∧
      (∀ letter value, (letter, value) ∈ pairs ↔ map letter = some value) ∧
      assignment.text = Text.commaSeparated (pairs.map fun (letter, value) =>
        [letter.char, '=', if value then '1' else '0'])) ∧
    ∀ updates' : List Update, assignment = reached updates' ↔ map = Update.mapOf updates' := by
  intro assignment map
  have values : assignment.value? = map := value?_reached updates
  have proper : assignment.Proper := proper_reached updates
  refine ⟨proper, congrFun values, ?_, ?_, ?_⟩
  · intro letter
    rw [mem_assigned, values, Option.ne_none_iff_exists']
  · refine ⟨assignment.pairs, assignment.pairwise_pairs, ?_, assignment.text_eq⟩
    intro letter value
    rw [mem_pairs, values]
  · intro updates'
    constructor
    · intro same
      rw [← values, same, value?_reached]
    · intro same
      apply proper.eq_of_value?_eq (proper_reached updates')
      rw [values, same, value?_reached]

/-- A true value that is taken away leaves nothing behind, and the last of two places counts. -/
example : reached [.assign ⟨0⟩ true, .unassign ⟨0⟩, .load [⟨1⟩, ⟨2⟩, ⟨1⟩] (by decide) 4] =
    reached [.replace [(⟨2⟩, false), (⟨1⟩, false)]] := by decide

end CircuitGrading.Assignment
