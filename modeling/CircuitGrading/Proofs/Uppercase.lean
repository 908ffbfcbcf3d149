import CircuitGrading.Text.Blank
import CircuitGrading.Text.Uppercase

/-!
# Uppercase forms are final

No uppercase form in the table has another form, so taking the form twice changes nothing more
(`uppercase_uppercase`). The characters of the table and their forms are compared as two sets of
code points, each packed into the bits of one number: the sets have no bit in common
(`characters_disjoint_forms`), and neither have the forms and the blanks. So the form of a
character that is not blank is not blank (`isBlank_uppercase`), and as the small letters of the
ASCII range have forms other than themselves, no form is one of them (`isLower_uppercase`).
-/

namespace CircuitGrading.Text

section CodePoints

variable {code : Nat}

/-- The numbers from `start` on in steps of `stride`, `count` of them, as the bits of a number. -/
def progression (start stride : Nat) : (count : Nat) → Nat
  | 0 => 0
  | count + 1 => progression start stride count ||| 1 <<< (start + count * stride)

/-- The union of sets of numbers that are given as the bits of numbers. -/
def unionBits (sets : List Nat) : Nat := sets.foldr (· ||| ·) 0

/-- A progression has its members as bits. -/
theorem testBit_progression {start stride count place : Nat} (inside : place < count) :
    (progression start stride count).testBit (start + place * stride) = true := by
  induction count with
  | zero => exact absurd inside (Nat.not_lt_zero place)
  | succ count ih =>
    rw [progression, Nat.testBit_or, Nat.one_shiftLeft, Nat.testBit_two_pow, Bool.or_eq_true]
    rcases Nat.lt_succ_iff_lt_or_eq.mp inside with earlier | rfl
    · exact Or.inl (ih earlier)
    · exact Or.inr (decide_eq_true rfl)

/-- A union has the bits of each of its sets. -/
theorem testBit_unionBits {sets : List Nat} {set : Nat} (member : set ∈ sets)
    (bit : set.testBit code = true) : (unionBits sets).testBit code = true := by
  induction sets with
  | nil => exact absurd member List.not_mem_nil
  | cons first rest ih =>
    have split : unionBits (first :: rest) = first ||| unionBits rest := rfl
    rw [split, Nat.testBit_or, Bool.or_eq_true]
    rcases List.mem_cons.mp member with rfl | later
    · exact Or.inl bit
    · exact Or.inr (ih later)

/-- Sets without common bits have no common member. -/
theorem not_testBit_of_disjoint {left right : Nat} (disjoint : left &&& right = 0)
    (inRight : right.testBit code = true) : ¬left.testBit code = true := by
  intro inLeft
  have both : (left &&& right).testBit code = true := by
    rw [Nat.testBit_and, inLeft, inRight, Bool.and_self]
  rw [disjoint, Nat.zero_testBit] at both
  contradiction

/-- The code points of the characters that have a form in the table. -/
def tableCharacters : Nat :=
  unionBits (uppercaseRuns.map fun run => progression run.first run.stride run.count)

/-- The code points of the forms in the table. -/
def tableForms : Nat :=
  unionBits (uppercaseRuns.map fun run => progression run.target run.stride run.count)

/-- The code points of the blanks. -/
def blanks : Nat :=
  unionBits (blankRanges.map fun range => progression range.1 1 (range.2 + 1 - range.1))

/-- No form has a form of its own in the table. -/
theorem characters_disjoint_forms : tableCharacters &&& tableForms = 0 := by
  decide +kernel

/-- No form is blank. -/
theorem blanks_disjoint_forms : blanks &&& tableForms = 0 := by
  decide +kernel

/-- A form of a run is at the place of its character. -/
theorem UppercaseRun.exists_place {run : UppercaseRun} {form : Nat}
    (formed : run.form? code = some form) :
    ∃ place < run.count, code = run.first + place * run.stride ∧
      form = run.target + place * run.stride := by
  rw [form?] at formed
  split at formed
  · rename_i conditions
    obtain ⟨low, high, multiple⟩ := conditions
    obtain ⟨place, distance⟩ := Nat.dvd_of_mod_eq_zero multiple
    rw [Nat.mul_comm] at distance
    have before : place * run.stride < run.count * run.stride := by omega
    obtain rfl := Option.some.inj formed
    exact ⟨place, Nat.lt_of_mul_lt_mul_right before, by omega, by rw [distance]⟩
  · contradiction

/-- The characters of the runs are among those of the table, and their forms among its forms. -/
theorem testBit_of_form? {run : UppercaseRun} (member : run ∈ uppercaseRuns) {form : Nat}
    (formed : run.form? code = some form) :
    tableCharacters.testBit code = true ∧ tableForms.testBit form = true := by
  obtain ⟨place, inside, rfl, rfl⟩ := run.exists_place formed
  exact ⟨testBit_unionBits (List.mem_map_of_mem member) (testBit_progression inside),
    testBit_unionBits (List.mem_map_of_mem member) (testBit_progression inside)⟩

end CodePoints

variable {c : Char}

/-- A blank is among the blanks. -/
theorem testBit_of_isBlank (blank : isBlank c = true) : blanks.testBit c.toNat = true := by
  obtain ⟨range, member, inside⟩ := List.any_eq_true.mp blank
  rw [Bool.and_eq_true, decide_eq_true_eq, decide_eq_true_eq] at inside
  have bit : (progression range.1 1 (range.2 + 1 - range.1)).testBit
      (range.1 + (c.toNat - range.1) * 1) = true := testBit_progression (by omega)
  rw [show range.1 + (c.toNat - range.1) * 1 = c.toNat by omega] at bit
  exact testBit_unionBits (List.mem_map_of_mem member) bit

/-- A valid code point is the code point of its character. -/
theorem toNat_ofNat {code : Nat} (valid : code.isValidChar) : (Char.ofNat code).toNat = code := by
  rw [Char.ofNat, dif_pos valid]
  rfl

/-- Every form in the table is the code point of a character. -/
theorem toNat_ofNat_form {run : UppercaseRun} (member : run ∈ uppercaseRuns) {code form : Nat}
    (formed : run.form? code = some form) : (Char.ofNat form).toNat = form := by
  have bounds : ∀ run ∈ uppercaseRuns,
      run.target + run.count * run.stride < 0xD800 ∨
        0xE000 ≤ run.target ∧ run.target + run.count * run.stride < 0x110000 := by decide +kernel
  have bound := bounds run member
  obtain ⟨place, inside, -, rfl⟩ := run.exists_place formed
  have before : place * run.stride ≤ run.count * run.stride :=
    Nat.mul_le_mul_right run.stride (Nat.le_of_lt inside)
  have valid : run.target + place * run.stride < 0xD800 ∨
      0xDFFF < run.target + place * run.stride ∧
        run.target + place * run.stride < 0x110000 := by omega
  exact toNat_ofNat valid

/-- A character is its own uppercase form, or its form is in the table. -/
theorem uppercase_eq_or_testBit (c : Char) :
    uppercase c = c ∨ tableForms.testBit (uppercase c).toNat = true := by
  rw [uppercase]
  split
  · rename_i form found
    obtain ⟨run, member, formed⟩ := List.exists_of_findSome?_eq_some found
    rw [toNat_ofNat_form member formed]
    exact Or.inr (testBit_of_form? member formed).2
  · exact Or.inl rfl

/-- A character that is not in the table is its own uppercase form. -/
theorem uppercase_of_not_testBit (outside : ¬tableCharacters.testBit c.toNat = true) :
    uppercase c = c := by
  rw [uppercase]
  split
  · rename_i form found
    obtain ⟨run, member, formed⟩ := List.exists_of_findSome?_eq_some found
    exact absurd (testBit_of_form? member formed).1 outside
  · rfl

/-- The uppercase form of an uppercase form is itself. -/
theorem uppercase_uppercase (c : Char) : uppercase (uppercase c) = uppercase c := by
  rcases uppercase_eq_or_testBit c with same | form
  · rw [same, same]
  · exact uppercase_of_not_testBit (not_testBit_of_disjoint characters_disjoint_forms form)

/-- The uppercase form of a character that is not blank is not blank. -/
theorem isBlank_uppercase (solid : isBlank c = false) : isBlank (uppercase c) = false := by
  rcases uppercase_eq_or_testBit c with same | form
  · rw [same, solid]
  · exact eq_false_of_ne_true
      (mt testBit_of_isBlank (not_testBit_of_disjoint blanks_disjoint_forms form))

/-- The small letters of the ASCII range are twenty-six characters in a row. -/
theorem isLower_iff : c.isLower = true ↔ 97 ≤ c.toNat ∧ c.toNat ≤ 122 := by
  show (decide ('a'.val ≤ c.val) && decide (c.val ≤ 'z'.val)) = true ↔ _
  rw [Bool.and_eq_true, decide_eq_true_eq, decide_eq_true_eq]
  exact Iff.rfl

/-- What holds of the small letters one by one holds of each of them. -/
theorem of_isLower (property : Char → Prop)
    (letters : ∀ place < 26, property (Char.ofNat (97 + place))) (small : c.isLower = true) :
    property c := by
  obtain ⟨low, high⟩ := isLower_iff.mp small
  have letter := letters (c.toNat - 97) (by omega)
  rwa [Nat.add_sub_cancel' low, Char.ofNat_toNat] at letter

/-- A small letter of the ASCII range has the capital letter as its uppercase form. -/
theorem uppercase_of_isLower (small : c.isLower = true) : uppercase c = c.toUpper :=
  of_isLower (fun c => uppercase c = c.toUpper) (by decide) small

/-- The capital letter is another character. -/
theorem toUpper_ne_of_isLower (small : c.isLower = true) : c.toUpper ≠ c :=
  of_isLower (fun c => c.toUpper ≠ c) (by decide) small

/-- Every other character has no case. -/
theorem toUpper_eq_self (large : c.isLower = false) : c.toUpper = c :=
  dif_neg fun range => Bool.eq_false_iff.mp large (isLower_iff.mpr range)

/-- In the ASCII range the uppercase forms are the capital letters. -/
theorem uppercase_of_ascii (ascii : c.toNat < 128) : uppercase c = c.toUpper := by
  cases small : c.isLower with
  | true => exact uppercase_of_isLower small
  | false =>
    have large : ¬(97 ≤ c.toNat ∧ c.toNat ≤ 122) := fun range =>
      Bool.eq_false_iff.mp small (isLower_iff.mpr range)
    -- One run of the table holds the small letters, and the others begin above the ASCII range.
    have runs : ∀ run ∈ uppercaseRuns,
        run.first = 97 ∧ run.count * run.stride = 26 ∨ 128 ≤ run.first := by decide +kernel
    have none : uppercaseRuns.findSome? (fun run => run.form? c.toNat) = none := by
      rw [List.findSome?_eq_none_iff]
      intro run member
      have elsewhere := runs run member
      rw [UppercaseRun.form?, if_neg (by omega)]
    rw [uppercase, none, toUpper_eq_self small]

/-- A letter of the ASCII range has one capital letter. -/
theorem toUpper_toUpper (c : Char) : c.toUpper.toUpper = c.toUpper := by
  cases small : c.isLower with
  | true => exact of_isLower (fun c => c.toUpper.toUpper = c.toUpper) (by decide) small
  | false => rw [toUpper_eq_self small, toUpper_eq_self small]

/-- The two cases of a letter of the ASCII range are equally blank. -/
theorem isBlank_toUpper (c : Char) : isBlank c.toUpper = isBlank c := by
  cases small : c.isLower with
  | true => exact of_isLower (fun c => isBlank c.toUpper = isBlank c) (by decide) small
  | false => rw [toUpper_eq_self small]

/-- The two cases of a letter of the ASCII range have the same uppercase form. -/
theorem uppercase_toUpper (c : Char) : uppercase c.toUpper = uppercase c := by
  cases small : c.isLower with
  | true => rw [← uppercase_of_isLower small, uppercase_uppercase]
  | false => rw [toUpper_eq_self small]

/-- No uppercase form is a small letter of the ASCII range. -/
theorem isLower_uppercase (c : Char) : (uppercase c).isLower = false := by
  cases small : (uppercase c).isLower with
  | false => rfl
  | true =>
    have capital := uppercase_of_isLower small
    rw [uppercase_uppercase] at capital
    exact absurd capital.symm (toUpper_ne_of_isLower small)

end CircuitGrading.Text
