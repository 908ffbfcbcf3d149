/-!
# Input letters

A circuit reads inputs named by the capital letters from `A` to `Z`. A letter is its position in
the alphabet, so every value of the type is one of the twenty-six letters and the order of the
letters is the order of their positions. `Letter.ofChar?` and `Letter.char` are inverse:
`ofChar?_eq_some_iff` says that a character is read exactly when it is the name of the letter read.
-/

namespace CircuitGrading

/-- An input of a circuit, named by a capital letter. -/
structure Letter where
  /-- The position in the alphabet; `A` has position 0. -/
  index : Fin 26
  deriving DecidableEq

namespace Letter

/-- The number of letters. -/
def count : Nat := 26

/-- All letters in alphabetical order. -/
def all : List Letter := (List.finRange 26).map Letter.mk

/-- Letters are ordered alphabetically. -/
instance : LE Letter := ⟨fun left right => left.index ≤ right.index⟩

/-- Letters are ordered alphabetically, strictly. -/
instance : LT Letter := ⟨fun left right => left.index < right.index⟩

instance (left right : Letter) : Decidable (left ≤ right) :=
  inferInstanceAs (Decidable (left.index ≤ right.index))

instance (left right : Letter) : Decidable (left < right) :=
  inferInstanceAs (Decidable (left.index < right.index))

/-- The code point of the character that names the letter. -/
def codePoint (letter : Letter) : UInt32 := 65 + UInt32.ofNat letter.index.val

/-- The character that names the letter. -/
def char (letter : Letter) : Char := Char.ofNat (65 + letter.index.val)

/-- The letter at a position of the alphabet, if there is one. -/
def ofIndex? (index : Nat) : Option Letter :=
  if inside : index < 26 then some ⟨⟨index, inside⟩⟩ else none

/-- The letter named by a character; only the characters from `A` to `Z` name one. -/
def ofChar? (c : Char) : Option Letter :=
  if 'A' ≤ c then ofIndex? (c.toNat - 65) else none

/-- Letters in alphabetical order, each as often as it is given. -/
def sort (letters : List Letter) : List Letter :=
  letters.mergeSort fun left right => decide (left ≤ right)

/-- A character names exactly the letter whose name it is. -/
theorem ofChar?_eq_some_iff {c : Char} {letter : Letter} :
    ofChar? c = some letter ↔ c = letter.char := by
  constructor
  · intro named
    simp only [ofChar?, ofIndex?] at named
    split at named
    · rename_i low
      split at named
      · have lowNat : 65 ≤ c.toNat := low
        obtain rfl := Option.some.inj named
        simp only [char]
        rw [show 65 + (c.toNat - 65) = c.toNat by omega, Char.ofNat_toNat]
      · contradiction
    · contradiction
  · rintro rfl
    obtain ⟨index⟩ := letter
    revert index
    decide

/-- The name of a letter is read back as the letter. -/
@[simp] theorem ofChar?_char (letter : Letter) : ofChar? letter.char = some letter :=
  ofChar?_eq_some_iff.mpr rfl

/-- Letters with the same name are the same. -/
theorem char_injective {left right : Letter} (same : left.char = right.char) : left = right :=
  Option.some.inj (by rw [← ofChar?_char left, same, ofChar?_char])

/-- No name of a letter comes before `A`. -/
theorem le_char (letter : Letter) : 'A' ≤ letter.char := by
  obtain ⟨index⟩ := letter
  revert index
  decide

/-- No name of a letter comes after `Z`. -/
theorem char_le (letter : Letter) : letter.char ≤ 'Z' := by
  obtain ⟨index⟩ := letter
  revert index
  decide

/-- The code point of a letter is that of its name. -/
theorem codePoint_eq (letter : Letter) : letter.codePoint = letter.char.val := by
  obtain ⟨index⟩ := letter
  revert index
  decide

/-- Every letter is listed. -/
@[simp] theorem mem_all (letter : Letter) : letter ∈ all :=
  List.mem_map.mpr ⟨letter.index, List.mem_finRange letter.index, rfl⟩

end Letter

end CircuitGrading
