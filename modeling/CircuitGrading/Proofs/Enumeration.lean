import CircuitGrading.Assignment
import CircuitGrading.Circuit.Basic
import Mathlib.Algebra.Group.Nat.Defs
import Mathlib.Data.List.Nodup
import Mathlib.Data.Nat.Init

/-!
# Enumerating the values of letters

The letters of a set are listed in strictly increasing order, so a circuit has between one and
twenty-six of them. A number gives each letter of a list one of its binary digits, the last letter
the lowest (`numbered`). Loading the number into an assignment gives exactly the listed letters
these values and leaves every other letter alone (`value?_loadNumber`), the digits are those that a
log prints (`binary_eq_map`), and every choice of values comes from a number with as many binary
digits as there are letters (`exists_numbered_eq`).
-/

namespace CircuitGrading

namespace LetterSet

/-- The alphabet is listed in strictly increasing order. -/
theorem pairwise_all : Letter.all.Pairwise (· < ·) := by
  decide

/-- A set is listed in strictly increasing order. -/
theorem pairwise_toList (set : LetterSet) : set.toList.Pairwise (· < ·) :=
  pairwise_all.filter _

/-- A set is listed without repetition. -/
theorem nodup_toList (set : LetterSet) : set.toList.Nodup := by
  apply (pairwise_toList set).imp
  intro left right before same
  subst same
  exact Nat.lt_irrefl _ before

/-- A set has twenty-six members at most. -/
theorem length_toList_le (set : LetterSet) : set.toList.length ≤ 26 :=
  List.length_filter_le _ _

/-- The members of a smaller set are listed in the same order as part of those of a larger one. -/
theorem toList_sublist {left right : LetterSet} (subset : ∀ letter ∈ left, letter ∈ right) :
    left.toList.Sublist right.toList :=
  List.monotone_filter_right Letter.all subset

end LetterSet

/-- A circuit reads at least one letter. -/
theorem Circuit.letterCount_pos (circuit : Circuit) : 0 < circuit.letterCount := by
  obtain ⟨letter, member⟩ := List.exists_mem_of_ne_nil _ circuit.leaves_ne_nil
  have listed : letter ∈ circuit.letters.toList :=
    LetterSet.mem_toList.mpr (mem_letters.mpr member)
  exact List.length_pos_of_mem listed

/-- A circuit reads twenty-six letters at most. -/
theorem Circuit.letterCount_le (circuit : Circuit) : circuit.letterCount ≤ 26 :=
  LetterSet.length_toList_le circuit.letters

namespace Letter

/-- The values that a number gives to the letters of a list: the last letter has the lowest binary
digit and each letter before it the next higher one. Of a repeated letter the last place counts. -/
def numbered (order : List Letter) (number : Nat) (letter : Letter) : Bool :=
  number.testBit (order.reverse.idxOf letter)

/-- A letter that comes again later has the value of its later place. -/
theorem numbered_cons_of_mem {letter : Letter} (first : Letter) {rest : List Letter}
    (number : Nat) (later : letter ∈ rest) :
    numbered (first :: rest) number letter = numbered rest number letter := by
  rw [numbered, numbered, List.reverse_cons, List.idxOf_append,
    if_pos (List.mem_reverse.mpr later)]

/-- A first letter that does not come again has the digit that as many digits follow as letters. -/
theorem numbered_cons_self {first : Letter} {rest : List Letter} (number : Nat)
    (last : first ∉ rest) :
    numbered (first :: rest) number first = number.testBit rest.length := by
  rw [numbered, List.reverse_cons, List.idxOf_append, if_neg (mt List.mem_reverse.mp last),
    List.idxOf_cons_self, List.length_reverse, Nat.zero_add]

/-- In a list without repetition the letter at a place has the digit as far from the top as the
place is from the front. -/
theorem numbered_getElem {order : List Letter} (distinct : order.Nodup) (number : Nat)
    {place : Nat} (inside : place < order.length) :
    numbered order number order[place] = number.testBit (order.length - 1 - place) := by
  have mirrored : order.length - 1 - place < order.reverse.length := by
    rw [List.length_reverse]
    omega
  have found : order.reverse[order.length - 1 - place] = order[place] := by
    rw [List.getElem_reverse]
    congr 1
    omega
  rw [numbered, ← found, (List.nodup_reverse.mpr distinct).idxOf_getElem]

/-- The binary digits of a number, most significant first, are the values of the letters in the
order of the list. -/
theorem binary_eq_map {order : List Letter} (distinct : order.Nodup) (number : Nat) :
    Text.binary order.length number =
      order.map fun letter => if numbered order number letter then '1' else '0' := by
  apply List.ext_getElem
  · rw [Text.length_binary, List.length_map]
  · intro place inBinary inMap
    have inside : place < order.length := by rwa [Text.length_binary] at inBinary
    rw [List.getElem_map, numbered_getElem distinct number inside]
    simp only [Text.binary, List.getElem_map, List.getElem_range]

/-- Every choice of values for the letters of a list is the one of a number that has as many
binary digits as the list has letters. -/
theorem exists_numbered_eq (order : List Letter) (valuation : Letter → Bool) :
    ∃ number < 2 ^ order.length,
      ∀ letter ∈ order, numbered order number letter = valuation letter := by
  let digits : Fin order.reverse.length → Bool := fun place => valuation order.reverse[place]
  refine ⟨Nat.ofBits digits, ?_, ?_⟩
  · calc
      Nat.ofBits digits < 2 ^ order.reverse.length := Nat.ofBits_lt_two_pow digits
      _ = 2 ^ order.length := by rw [List.length_reverse]
  · intro letter member
    have inside : order.reverse.idxOf letter < order.reverse.length :=
      List.idxOf_lt_length_of_mem (List.mem_reverse.mpr member)
    rw [numbered, Nat.testBit_ofBits_lt digits _ inside]
    exact congrArg valuation (List.getElem_idxOf inside)

end Letter

namespace Assignment

/-- After a number is loaded, the listed letters have its digits as their values and every other
letter is as before. -/
theorem value?_loadNumber (assignment : Assignment) (order : List Letter) (number : UInt64)
    (letter : Letter) :
    (assignment.loadNumber order number).value? letter =
      if letter ∈ order then some (Letter.numbered order number.toNat letter)
      else assignment.value? letter := by
  induction order generalizing assignment with
  | nil => simp [loadNumber]
  | cons first rest ih =>
    rw [loadNumber, ih, value?_assign]
    by_cases later : letter ∈ rest
    · -- A later place of the letter overwrites what its first place was given.
      rw [if_pos later, if_pos (List.mem_cons_of_mem first later),
        Letter.numbered_cons_of_mem first number.toNat later]
    · rw [if_neg later]
      by_cases here : letter = first
      · subst here
        rw [if_pos rfl, if_pos List.mem_cons_self, Letter.numbered_cons_self number.toNat later]
      · rw [if_neg here, if_neg (by simp [here, later])]

end Assignment

end CircuitGrading
