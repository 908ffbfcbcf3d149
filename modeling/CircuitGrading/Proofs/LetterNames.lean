import CircuitGrading.Letter.Name
import CircuitGrading.Proofs.Reading
import CircuitGrading.Proofs.Uppercase

/-!
# Letters in raw texts

A raw text with one character between blanks can be read as an expression and as the name of a
letter. Both readers pass over the blanks (`Text.Lone.condense_eq`, `Text.Lone.trim_eq`) and take
the character in upper case, but only the reader of expressions knows the uppercase forms beyond the
ASCII range. Of these forms two are capital letters: that of the dotless `ı` and that of the long
`ſ` (`Text.uppercase_eq_char_iff`). So a text with one of these two characters is an expression of a
letter but no name of it, and on all other texts the two readers agree.
-/

namespace CircuitGrading

/-- The name of a letter is in upper case. -/
theorem Letter.toUpper_char (letter : Letter) : letter.char.toUpper = letter.char := by
  obtain ⟨index⟩ := letter
  revert index
  decide

/-- The name of a letter is its own uppercase form. -/
theorem Letter.uppercase_char (letter : Letter) : Text.uppercase letter.char = letter.char := by
  have ascii : letter.char.toNat < 128 := Nat.lt_of_le_of_lt letter.char_le (by decide)
  rw [Text.uppercase_of_ascii ascii, letter.toUpper_char]

namespace Text

variable {text : Text} {c : Char}

/-- The character is the only one of the text that is not blank. -/
def Lone (text : Text) (c : Char) : Prop := (text.filter fun d => !isBlank d) = [c]

/-- Whether a character is the only one that is not blank can be computed. -/
instance (text : Text) (c : Char) : Decidable (Lone text c) :=
  inferInstanceAs (Decidable ((text.filter fun d => !isBlank d) = [c]))

/-- All other characters are blanks, in front of the one and behind it. -/
theorem Lone.exists_blanks (lone : Lone text c) :
    ∃ before after, text = before ++ c :: after ∧ (∀ d ∈ before, isBlank d = true) ∧
      isBlank c = false ∧ ∀ d ∈ after, isBlank d = true := by
  obtain ⟨before, after, rfl, leading, solid, trailing⟩ := List.filter_eq_cons_iff.mp lone
  have none := List.filter_eq_nil_iff.mp trailing
  refine ⟨before, after, rfl, fun d member => ?_, by simpa using solid, fun d member => ?_⟩
  · simpa using leading d member
  · simpa using none d member

/-- Condensing leaves the uppercase form of the character. -/
theorem Lone.condense_eq (lone : Lone text c) : condense text = [uppercase c] := by
  have solid : (text.filter fun d => !isBlank d) = [c] := lone
  rw [condense, solid, List.map_singleton]

/-- Trimming leaves the character. -/
theorem Lone.trim_eq (lone : Lone text c) : trim text = [c] := by
  obtain ⟨before, after, rfl, leading, solid, trailing⟩ := lone.exists_blanks
  have stays : ¬isBlank c = true := by rw [solid]; decide
  have front : (before ++ c :: after).dropWhile isBlank = c :: after := by
    rw [List.dropWhile_append_of_pos leading, List.dropWhile_cons_of_neg stays]
  have behind : ∀ d ∈ after.reverse, isBlank d = true := fun d member =>
    trailing d (List.mem_reverse.mp member)
  have back : (c :: after).reverse.dropWhile isBlank = [c] := by
    rw [List.reverse_cons, List.dropWhile_append_of_pos behind, List.dropWhile_cons_of_neg stays]
  rw [trim, front, back, List.reverse_singleton]

/-- The runs of the table whose forms are not all behind the capital letters of the ASCII range: the
small letters, the dotless `ı` and the long `ſ`. -/
theorem filter_target_le :
    (uppercaseRuns.filter fun run => decide (run.target ≤ 90)) =
      [⟨0x0061, 26, 1, 0x0041⟩, ⟨0x0131, 1, 1, 0x0049⟩, ⟨0x017F, 1, 1, 0x0053⟩] := by
  rfl

/-- A character of the table whose form is the name of a letter is a small letter of the ASCII range
or one of two further characters. -/
theorem isLower_or_of_form? {run : UppercaseRun} (member : run ∈ uppercaseRuns) {form : Nat}
    (formed : run.form? c.toNat = some form) (capital : form ≤ 90) :
    c.isLower = true ∨ c = 'ı' ∨ c = 'ſ' := by
  obtain ⟨place, inside, position, rfl⟩ := run.exists_place formed
  have low : run.target ≤ 90 := Nat.le_trans (Nat.le_add_right _ _) capital
  have listed : run ∈ uppercaseRuns.filter fun run => decide (run.target ≤ 90) :=
    List.mem_filter.mpr ⟨member, decide_eq_true low⟩
  have character : ∀ code, c.toNat = code → c = Char.ofNat code := by
    rintro code rfl
    exact (Char.ofNat_toNat c).symm
  rw [filter_target_le] at listed
  simp only [List.mem_cons, List.not_mem_nil, or_false] at listed
  rcases listed with rfl | rfl | rfl
  · have small : 97 ≤ c.toNat ∧ c.toNat ≤ 122 := by
      dsimp only at inside position
      omega
    exact Or.inl (isLower_iff.mpr small)
  · have code : c.toNat = 0x0131 := by
      dsimp only at inside position
      omega
    exact Or.inr (Or.inl (character 0x0131 code))
  · have code : c.toNat = 0x017F := by
      dsimp only at inside position
      omega
    exact Or.inr (Or.inr (character 0x017F code))

/-- The uppercase form of a character is the name of a letter exactly if the character is the letter
in either case, or the dotless `ı` for `I`, or the long `ſ` for `S`. -/
theorem uppercase_eq_char_iff {letter : Letter} :
    uppercase c = letter.char ↔
      c.toUpper = letter.char ∨ (c = 'ı' ∧ letter = ⟨8⟩) ∨ (c = 'ſ' ∧ letter = ⟨18⟩) := by
  have dotless : uppercase 'ı' = (⟨8⟩ : Letter).char := by decide +kernel
  have long : uppercase 'ſ' = (⟨18⟩ : Letter).char := by decide +kernel
  constructor
  · intro named
    cases found : uppercaseRuns.findSome? fun run => run.form? c.toNat with
    | none =>
      have same : uppercase c = c := by rw [uppercase, found]
      have itself : c = letter.char := same.symm.trans named
      exact Or.inl (by rw [itself, letter.toUpper_char])
    | some form =>
      obtain ⟨run, member, formed⟩ := List.exists_of_findSome?_eq_some found
      have changed : uppercase c = Char.ofNat form := by rw [uppercase, found]
      have code : letter.char.toNat = form := by
        rw [← named, changed, toNat_ofNat_form member formed]
      have capital : form ≤ 90 := by
        rw [← code]
        exact letter.char_le
      rcases isLower_or_of_form? member formed capital with small | rfl | rfl
      · exact Or.inl ((uppercase_of_isLower small).symm.trans named)
      · exact Or.inr (Or.inl ⟨rfl, Letter.char_injective (named.symm.trans dotless)⟩)
      · exact Or.inr (Or.inr ⟨rfl, Letter.char_injective (named.symm.trans long)⟩)
  · rintro (named | ⟨rfl, rfl⟩ | ⟨rfl, rfl⟩)
    · rw [← uppercase_toUpper, named, letter.uppercase_char]
    · exact dotless
    · exact long

end Text

/-- A character is taken as a letter exactly if it is the name of the letter. -/
theorem Letter.ofChar_eq_ok_iff {c : Char} {letter : Letter} :
    ofChar c = .ok letter ↔ c = letter.char := by
  rw [← ofChar?_eq_some_iff]
  unfold ofChar
  cases ofChar? c with
  | none => simp
  | some other => simp

/-- A single character is read as a letter exactly if it is the name of the letter. -/
theorem Circuit.parse_singleton_eq_ok_iff {c : Char} {letter : Letter} :
    parse [c] = .ok (input letter) ↔ c = letter.char := by
  constructor
  · intro done
    obtain ⟨spells, -⟩ := spells_of_parse done
    generalize whole : [c] = text at spells
    cases spells with
    | input letter => exact (List.cons.inj whole).1
  · rintro rfl
    exact parse_letter letter

namespace Text.Lone

variable {text : Text} {c : Char} (lone : Lone text c)

include lone

/-- As an expression the text is the letter that the uppercase form of the character names. -/
theorem read_circuit_iff {letter : Letter} :
    Circuit.read text = .ok (.input letter) ↔ uppercase c = letter.char := by
  rw [Circuit.read, lone.condense_eq, Circuit.parse_singleton_eq_ok_iff]

/-- As a name the text is what the character names in upper case of the ASCII range. -/
theorem read_letter_eq : Letter.read text = Letter.ofChar c.toUpper := by
  rw [Letter.read, lone.trim_eq]

end Text.Lone

open Text in
/-- A text with one character that is not blank is an expression of a letter exactly if it is a name
of the letter, unless the character is the dotless `ı` or the long `ſ`. With one of these the text
is an expression of the letter `I` or of `S`, and no name. -/
theorem read_circuit_iff_read_letter {text : Text} {c : Char} (lone : text.Lone c)
    (letter : Letter) :
    (c ≠ 'ı' → c ≠ 'ſ' →
      (Circuit.read text = .ok (.input letter) ↔ Letter.read text = .ok letter)) ∧
    (c = 'ı' →
      Circuit.read text = .ok (.input ⟨8⟩) ∧ Letter.read text = .error (.notLetter 'ı')) ∧
    (c = 'ſ' →
      Circuit.read text = .ok (.input ⟨18⟩) ∧ Letter.read text = .error (.notLetter 'ſ')) := by
  refine ⟨fun notDotless notLong => ?_, ?_, ?_⟩
  · rw [lone.read_circuit_iff, lone.read_letter_eq, Letter.ofChar_eq_ok_iff, uppercase_eq_char_iff]
    constructor
    · rintro (named | ⟨dotless, -⟩ | ⟨long, -⟩)
      · exact named
      · exact absurd dotless notDotless
      · exact absurd long notLong
    · exact Or.inl
  · rintro rfl
    have read := lone.read_circuit_iff.mpr
      (uppercase_eq_char_iff.mpr (Or.inr (Or.inl ⟨rfl, rfl⟩)))
    exact ⟨read, lone.read_letter_eq.trans rfl⟩
  · rintro rfl
    have read := lone.read_circuit_iff.mpr
      (uppercase_eq_char_iff.mpr (Or.inr (Or.inr ⟨rfl, rfl⟩)))
    exact ⟨read, lone.read_letter_eq.trans rfl⟩

/-- A small letter and the two exceptions, each between different blanks. -/
theorem read_circuit_iff_read_letter_between_blanks :
    (Circuit.read "\u3000q\u0085".toList = .ok (.input ⟨16⟩) ↔
      Letter.read "\u3000q\u0085".toList = .ok ⟨16⟩) ∧
    (Circuit.read "\t ı".toList = .ok (.input ⟨8⟩) ∧
      Letter.read "\t ı".toList = .error (.notLetter 'ı')) ∧
    Circuit.read "ſ\u2028".toList = .ok (.input ⟨18⟩) ∧
      Letter.read "ſ\u2028".toList = .error (.notLetter 'ſ') := by
  have small : Text.Lone "\u3000q\u0085".toList 'q' := by decide
  have dotless : Text.Lone "\t ı".toList 'ı' := by decide
  have long : Text.Lone "ſ\u2028".toList 'ſ' := by decide
  exact ⟨(read_circuit_iff_read_letter small ⟨16⟩).1 (by decide) (by decide),
    (read_circuit_iff_read_letter dotless ⟨8⟩).2.1 rfl,
    (read_circuit_iff_read_letter long ⟨18⟩).2.2 rfl⟩

/-- The dotless `ı` alone is an expression of the letter `I` and no name of it, so the two readers
do not agree on all texts with one character. -/
theorem dotless_read_as_circuit_only :
    ¬∀ (text : Text) (c : Char) (letter : Letter), text.Lone c →
      (Circuit.read text = .ok (.input letter) ↔ Letter.read text = .ok letter) := by
  intro agree
  have lone : Text.Lone ['ı'] 'ı' := by decide
  have read : Circuit.read ['ı'] = .ok (.input ⟨8⟩) :=
    lone.read_circuit_iff.mpr (Text.uppercase_eq_char_iff.mpr (Or.inr (Or.inl ⟨rfl, rfl⟩)))
  have named := (agree ['ı'] 'ı' ⟨8⟩ lone).mp read
  rw [lone.read_letter_eq] at named
  have refused : Letter.ofChar 'ı'.toUpper = .error (.notLetter 'ı') := rfl
  rw [refused] at named
  contradiction

end CircuitGrading
