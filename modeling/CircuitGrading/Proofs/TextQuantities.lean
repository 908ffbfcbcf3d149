import CircuitGrading.Proofs.WrittenForm
import CircuitGrading.Text.Word

/-!
# What a text shows of its circuit

The answers to questions about a circuit can be read off any of its expressions without reading the
expression. Each gate has one opening bracket, the deepest level is the depth, and the words of the
text are the names of the gates and of the letters (`Spells.hasWord_iff`): a name of a gate has two
letters at least, so a word of one letter is an input and any longer word is a gate
(`Spells.shows`). This holds of the texts that the reader accepts and of the written form of every
circuit, also of those that are too deep for the reader.
-/

namespace CircuitGrading

open Text

namespace Circuit

/-- The gates from the root to the leaves, and from left to right. -/
def gates : Circuit → List Gate
  | input _ => []
  | not child => .not :: child.gates
  | binary gate left right => .binary gate :: (left.gates ++ right.gates)

/-- The names of the gates of an elementary circuit. -/
def elementaryNames : List Text := ["NOT".toList, "AND".toList, "OR".toList]

/-- A circuit is elementary exactly if all of its gates have elementary names. -/
theorem isElementary_iff {circuit : Circuit} :
    circuit.isElementary = true ↔ ∀ gate ∈ circuit.gates, gate.name.toList ∈ elementaryNames := by
  induction circuit with
  | input letter => simp [isElementary, gates]
  | not child ih =>
    have here : Gate.not.name.toList ∈ elementaryNames := by decide
    rw [isElementary, gates, List.forall_mem_cons, ih, and_iff_right here]
  | binary gate left right leftIH rightIH =>
    have here : gate.isElementary = true ↔ (Gate.binary gate).name.toList ∈ elementaryNames := by
      cases gate <;> decide
    rw [isElementary, Bool.and_eq_true, Bool.and_eq_true, leftIH, rightIH, gates,
      List.forall_mem_cons, List.forall_mem_append, here, and_assoc]

end Circuit

/-- No name of a gate is as short as a letter. -/
theorem Gate.two_le_length_name (gate : Gate) : 2 ≤ gate.name.toList.length := by
  cases gate with
  | not => decide
  | binary gate => cases gate <;> decide

/-- The name of a gate is its only word. -/
theorem Gate.hasWord_name (gate : Gate) {word : Text} :
    HasWord gate.name.toList word ↔ word = gate.name.toList := by
  apply hasWord_of_capital
  · intro empty
    have long := gate.two_le_length_name
    rw [empty, List.length_nil] at long
    omega
  · exact fun c => isUpper_of_mem_name

/-- The words of a call are its name and those of its operands. -/
theorem Gate.hasWord_call (gate : Gate) (body word : Text) :
    HasWord (gate.name.toList ++ '(' :: body) word ↔
      word = gate.name.toList ∨ HasWord body word := by
  rw [hasWord_append_cons (by decide), gate.hasWord_name]

/-- The end of a call has no words. -/
theorem EndsCall.hasWord_append {ending : Text} (ends : EndsCall ending) (text word : Text) :
    HasWord (text ++ ending) word ↔ HasWord text word := by
  have nothing := not_hasWord_nil word
  have closing : ¬HasWord [')'] word := by
    change ¬HasWord ([] ++ ')' :: []) word
    rw [hasWord_append_cons (by decide), or_self]
    exact nothing
  rcases ends with rfl | rfl
  · rw [hasWord_append_cons (by decide), or_iff_left nothing]
  · rw [hasWord_append_cons (by decide), or_iff_left closing]

/-- The end of a call opens no bracket. -/
theorem EndsCall.count_opening {ending : Text} (ends : EndsCall ending) : ending.count '(' = 0 := by
  rcases ends with rfl | rfl <;> decide

/-- The name of a gate opens no bracket. -/
theorem Gate.count_opening_name (gate : Gate) : gate.name.toList.count '(' = 0 :=
  List.count_eq_zero.mpr fun member => (gate.plain_name '(' member).1 rfl

namespace Spells

variable {text : Text} {circuit : Circuit}

/-- The words of an expression are its letters and the names of its gates. -/
theorem hasWord_iff (spells : Spells text circuit) {word : Text} :
    HasWord text word ↔
      (∃ letter ∈ circuit.leaves, word = [letter.char]) ∨
        ∃ gate ∈ circuit.gates, word = gate.name.toList := by
  induction spells with
  | input letter =>
    have capital : ∀ c ∈ [letter.char], c.isUpper = true := by
      intro c member
      rw [List.mem_singleton.mp member]
      exact letter.isUpper_char
    rw [hasWord_of_capital (List.cons_ne_nil _ _) capital]
    simp [Circuit.leaves, Circuit.gates]
  | not _ ends ih =>
    rw [Gate.hasWord_call, ends.hasWord_append, ih, Circuit.leaves, Circuit.gates,
      List.exists_mem_cons_iff]
    exact or_left_comm
  | @binary gate first second left right ending _ _ ends firstIH secondIH =>
    change HasWord ((Gate.binary gate).name.toList ++ '(' :: (first ++ ',' :: (second ++ ending)))
      word ↔ _
    rw [Gate.hasWord_call, hasWord_append_cons (by decide), ends.hasWord_append, firstIH, secondIH,
      Circuit.leaves, Circuit.gates, List.exists_mem_cons_iff]
    -- Letters and gates of the first operand come before those of the second one, on the left.
    simp only [List.mem_append, or_and_right, exists_or]
    rw [or_or_or_comm]
    exact or_left_comm

/-- An expression opens one bracket for each gate. -/
theorem count_opening (spells : Spells text circuit) : text.count '(' = circuit.size := by
  induction spells with
  | input letter =>
    have other : letter.char ≠ '(' := (ne_of_isUpper letter.isUpper_char).1
    rw [List.count_cons_of_ne other, List.count_nil, Circuit.size]
  | not _ ends ih =>
    rw [List.count_append, List.count_cons_self, List.count_append, Gate.count_opening_name,
      ends.count_opening, ih, Circuit.size]
    omega
  | @binary gate first second left right ending _ _ ends firstIH secondIH =>
    have name : gate.name.toList.count '(' = 0 := (Gate.binary gate).count_opening_name
    rw [List.count_append, List.count_cons_self, List.count_append,
      List.count_cons_of_ne (by decide), List.count_append, name, ends.count_opening, firstIH,
      secondIH, Circuit.size]
    omega

/-- A word of one letter is an input. -/
theorem mem_letters_iff_hasWord (spells : Spells text circuit) (letter : Letter) :
    letter ∈ circuit.letters ↔ HasWord text [letter.char] := by
  rw [Circuit.mem_letters, spells.hasWord_iff]
  constructor
  · exact fun member => Or.inl ⟨letter, member, rfl⟩
  · rintro (⟨letter', member, same⟩ | ⟨gate, -, same⟩)
    · rwa [Letter.char_injective (List.singleton_inj.mp same)]
    · have long := gate.two_le_length_name
      rw [← same, List.length_singleton] at long
      omega

/-- A word of two letters or more is a gate. -/
theorem isElementary_iff_hasWord (spells : Spells text circuit) :
    circuit.isElementary = true ↔
      ∀ word, HasWord text word → 2 ≤ word.length → word ∈ Circuit.elementaryNames := by
  rw [Circuit.isElementary_iff]
  constructor
  · intro elementary word found long
    rcases spells.hasWord_iff.mp found with ⟨letter, -, rfl⟩ | ⟨gate, member, rfl⟩
    · rw [List.length_singleton] at long
      omega
    · exact elementary gate member
  · intro elementary gate member
    have found := spells.hasWord_iff.mpr (Or.inr ⟨gate, member, rfl⟩)
    exact elementary gate.name.toList found gate.two_le_length_name

end Spells

/-- The answers to questions about the circuit can be read off the text. -/
structure Shows (text : Text) (circuit : Circuit) : Prop where
  /-- The text is made of capital letters, brackets and commas. -/
  alphabet : ∀ c ∈ text, c.isUpper = true ∨ c = '(' ∨ c = ')' ∨ c = ','
  /-- Each gate has one opening bracket. -/
  size : circuit.size = text.count '('
  /-- No beginning of the text has a level above the depth. -/
  bounded : LevelAtMost circuit.depth text
  /-- Some beginning of the text has the depth for its level. -/
  deepest : ∃ front, front <+: text ∧ level front = circuit.depth
  /-- The inputs are the letters that stand alone. -/
  letters : ∀ letter, letter ∈ circuit.letters ↔ HasWord text [letter.char]
  /-- The circuit is elementary if every run of two letters or more is an elementary name. -/
  elementary : circuit.isElementary = true ↔
    ∀ word, HasWord text word → 2 ≤ word.length → word ∈ ["NOT".toList, "AND".toList, "OR".toList]

/-- An expression shows its circuit. -/
theorem Spells.shows {text : Text} {circuit : Circuit} (spells : Spells text circuit) :
    Shows text circuit where
  alphabet := spells.alphabet
  size := spells.count_opening.symm
  bounded := fun front beginning => (spells.nested.within front beginning).2
  deepest := spells.nested.deepest
  letters := spells.mem_letters_iff_hasWord
  elementary := spells.isElementary_iff_hasWord

/-- A text that is read shows the circuit that is read, which keeps to the bracket limit; and the
written form of any circuit shows the circuit. -/
theorem Circuit.shown_by_text :
    (∀ (text : Text) (circuit : Circuit), parse text = .ok circuit →
      Shows text circuit ∧ circuit.depth ≤ 512 ∧ LevelAtMost 512 text) ∧
    ∀ circuit : Circuit, Shows circuit.expression circuit := by
  refine ⟨fun text circuit done => ?_, fun circuit => (spells_expression circuit).shows⟩
  obtain ⟨spells, shallow⟩ := spells_of_parse done
  have shows := spells.shows
  refine ⟨shows, shallow, fun front beginning => ?_⟩
  have bound := shows.bounded front beginning
  have limit : circuit.depth ≤ 512 := shallow
  omega

/-- A text with a comma before a closing bracket, and with the letter A both as an input and in a
name. -/
theorem Circuit.shown_by_text_spare_comma :
    let text := "AND(NOT(A,),XOR(B,A))".toList
    let a : Letter := ⟨0⟩
    let b : Letter := ⟨1⟩
    let circuit := binary .and (not (input a)) (binary .xor (input b) (input a))
    parse text = .ok circuit ∧ Shows text circuit ∧ circuit.depth ≤ 512 ∧ LevelAtMost 512 text := by
  intro text a b circuit
  have done : parse text = .ok circuit := by decide +kernel
  exact ⟨done, shown_by_text.1 text circuit done⟩

end CircuitGrading
