import CircuitGrading.Letter
import CircuitGrading.Text.Basic

/-!
# Sets of letters

A set of letters is packed into twenty-six bits, one for each letter. Its view is membership:
each operation has one lemma that says which letters are members afterwards, and `ext` says that
two sets with the same members are equal, whatever was done to build them. Listing a set gives
its members in alphabetical order, each once.
-/

namespace CircuitGrading

/-- A set of letters, one bit for each letter of the alphabet. -/
structure LetterSet where
  /-- The bit at a letter's position says whether the letter is a member. -/
  bits : BitVec 26
  deriving DecidableEq

namespace LetterSet

/-- Whether a letter is a member. -/
def contains (set : LetterSet) (letter : Letter) : Bool := set.bits.getLsbD letter.index.val

/-- Membership is the bit test. -/
instance : Membership Letter LetterSet := ⟨fun set letter => set.contains letter = true⟩

instance (letter : Letter) (set : LetterSet) : Decidable (letter ∈ set) :=
  inferInstanceAs (Decidable (set.contains letter = true))

/-- The set without members. -/
def empty : LetterSet := ⟨0⟩

/-- The bits of the set that has a letter as its only member. -/
def bit (letter : Letter) : BitVec 26 :=
  BitVec.ofNatLT (1 <<< letter.index.val) (by
    rw [Nat.one_shiftLeft]
    exact Nat.pow_lt_pow_right (by decide) letter.index.isLt)

/-- The set with one more letter. -/
def insert (set : LetterSet) (letter : Letter) : LetterSet := ⟨set.bits ||| bit letter⟩

/-- The set without a letter. -/
def erase (set : LetterSet) (letter : Letter) : LetterSet :=
  ⟨set.bits ^^^ (set.bits &&& bit letter)⟩

/-- The set with all letters of a list added in turn. -/
def insertAll (set : LetterSet) (letters : List Letter) : LetterSet := letters.foldl insert set

/-- The set of the letters of a list. -/
def ofList (letters : List Letter) : LetterSet := empty.insertAll letters

/-- The members in alphabetical order. -/
def toList (set : LetterSet) : List Letter := Letter.all.filter set.contains

/-- The number of members. -/
def size (set : LetterSet) : Nat := set.toList.length

/-- Whether there are no members. -/
def isEmpty (set : LetterSet) : Bool := set.bits == 0

/-- The names of the members in alphabetical order, with commas between them. -/
def text (set : LetterSet) : Text :=
  Text.commaSeparated (set.toList.map fun letter => [letter.char])

/-- Membership is what `contains` answers. -/
theorem mem_iff {letter : Letter} {set : LetterSet} :
    letter ∈ set ↔ set.contains letter = true := Iff.rfl

/-- Sets that answer every membership question alike are equal. -/
theorem ext_contains {left right : LetterSet}
    (same : ∀ letter, left.contains letter = right.contains letter) : left = right := by
  obtain ⟨left⟩ := left
  obtain ⟨right⟩ := right
  congr 1
  exact BitVec.eq_of_getLsbD_eq fun position inside => same ⟨⟨position, inside⟩⟩

/-- Sets with the same members are equal. -/
theorem ext {left right : LetterSet} (same : ∀ letter, letter ∈ left ↔ letter ∈ right) :
    left = right :=
  ext_contains fun letter => Bool.eq_iff_iff.mpr (same letter)

/-- The empty set has no members. -/
@[simp] theorem contains_empty (letter : Letter) : empty.contains letter = false := by
  simp [contains, empty]

/-- No letter is a member of the empty set. -/
@[simp] theorem not_mem_empty (letter : Letter) : ¬letter ∈ empty := by
  simp [mem_iff]

/-- Only the position of its letter is set in the bits of a single letter. -/
@[simp] theorem getLsbD_bit (letter : Letter) (position : Nat) :
    (bit letter).getLsbD position = decide (letter.index.val = position) := by
  simp [bit, BitVec.getLsbD, Nat.one_shiftLeft, Nat.testBit_two_pow]

/-- Insertion adds exactly its letter. -/
@[simp] theorem contains_insert (set : LetterSet) (inserted letter : Letter) :
    (set.insert inserted).contains letter =
      (decide (letter = inserted) || set.contains letter) := by
  obtain ⟨inserted⟩ := inserted
  obtain ⟨letter⟩ := letter
  simp only [contains, insert, BitVec.getLsbD_or, getLsbD_bit, Letter.mk.injEq, Fin.ext_iff]
  rw [Bool.or_comm]
  simp only [eq_comm]

/-- Erasure removes exactly its letter. -/
@[simp] theorem contains_erase (set : LetterSet) (erased letter : Letter) :
    (set.erase erased).contains letter = (!decide (letter = erased) && set.contains letter) := by
  obtain ⟨erased⟩ := erased
  obtain ⟨letter⟩ := letter
  simp only [contains, erase, BitVec.getLsbD_xor, BitVec.getLsbD_and, getLsbD_bit,
    Letter.mk.injEq, Fin.ext_iff, eq_comm]
  cases set.bits.getLsbD letter.val <;> simp

/-- Adding the letters of a list adds exactly those letters. -/
@[simp] theorem mem_insertAll {set : LetterSet} {letters : List Letter} {letter : Letter} :
    letter ∈ set.insertAll letters ↔ letter ∈ set ∨ letter ∈ letters := by
  induction letters generalizing set with
  | nil => simp [insertAll]
  | cons first rest ih =>
    have step : set.insertAll (first :: rest) = (set.insert first).insertAll rest := rfl
    rw [step, ih, mem_iff, contains_insert, Bool.or_eq_true, decide_eq_true_iff, ← mem_iff,
      List.mem_cons]
    grind

/-- The set of a list has the members of the list. -/
@[simp] theorem mem_ofList {letters : List Letter} {letter : Letter} :
    letter ∈ ofList letters ↔ letter ∈ letters := by
  simp [ofList]

/-- Exactly the members are listed. -/
@[simp] theorem mem_toList {set : LetterSet} {letter : Letter} :
    letter ∈ set.toList ↔ letter ∈ set := by
  simp [toList, mem_iff]

end LetterSet

end CircuitGrading
