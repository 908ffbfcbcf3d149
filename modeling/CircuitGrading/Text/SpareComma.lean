import CircuitGrading.Text.Basic

/-!
# Spare commas

A comma is spare when a closing bracket follows it immediately: it separates nothing. Dropping the
spare commas of a text leaves every other character as it is, and works piece by piece wherever no
cut goes between such a comma and its bracket (`dropSpareCommas_append`).
-/

namespace CircuitGrading.Text

/-- The text without its spare commas. -/
def dropSpareCommas : Text → Text
  | [] => []
  | c :: rest =>
    if c = ',' ∧ rest.head? = some ')' then dropSpareCommas rest else c :: dropSpareCommas rest

/-- A spare comma is dropped. -/
theorem dropSpareCommas_cons_of_spare {c : Char} {rest : Text}
    (spare : c = ',' ∧ rest.head? = some ')') :
    dropSpareCommas (c :: rest) = dropSpareCommas rest := by
  rw [dropSpareCommas, if_pos spare]

/-- Every other character stays. -/
theorem dropSpareCommas_cons {c : Char} {rest : Text}
    (needed : ¬(c = ',' ∧ rest.head? = some ')')) :
    dropSpareCommas (c :: rest) = c :: dropSpareCommas rest := by
  rw [dropSpareCommas, if_neg needed]

/-- Nothing is dropped from a text without commas. -/
theorem dropSpareCommas_of_not_mem {text : Text} (commaless : ',' ∉ text) :
    dropSpareCommas text = text := by
  induction text with
  | nil => rfl
  | cons c rest ih =>
    obtain ⟨here, later⟩ := not_or.mp (mt List.mem_cons.mpr commaless)
    rw [dropSpareCommas_cons fun spare => here spare.1.symm, ih later]

/-- Two pieces of a text lose their own commas, if no spare comma is cut from its bracket. -/
theorem dropSpareCommas_append {left right : Text}
    (apart : left.getLast? = some ',' → right.head? ≠ some ')') :
    dropSpareCommas (left ++ right) = dropSpareCommas left ++ dropSpareCommas right := by
  induction left with
  | nil => rfl
  | cons c rest ih =>
    have later := ih fun last => apart (by rw [List.getLast?_cons, last]; rfl)
    -- What follows the first character is in `rest`, unless that is empty.
    have next : c = ',' ∧ (rest ++ right).head? = some ')' ↔ c = ',' ∧ rest.head? = some ')' := by
      cases rest with
      | nil =>
        constructor
        · rintro ⟨rfl, closing⟩
          exact absurd closing (apart rfl)
        · rintro ⟨-, closing⟩
          contradiction
      | cons d rest => exact Iff.rfl
    by_cases spare : c = ',' ∧ rest.head? = some ')'
    · rw [List.cons_append, dropSpareCommas_cons_of_spare (next.mpr spare),
        dropSpareCommas_cons_of_spare spare, later]
    · rw [List.cons_append, dropSpareCommas_cons (mt next.mp spare), dropSpareCommas_cons spare,
        later, List.cons_append]

/-- No text becomes longer. -/
theorem length_dropSpareCommas_le (text : Text) : (dropSpareCommas text).length ≤ text.length := by
  induction text with
  | nil => exact Nat.le_refl 0
  | cons c rest ih =>
    unfold dropSpareCommas
    split
    · rw [List.length_cons]
      omega
    · rw [List.length_cons, List.length_cons]
      omega

/-- A text stays as it is exactly if it has no spare comma. -/
theorem dropSpareCommas_eq_self_iff {text : Text} :
    dropSpareCommas text = text ↔ ¬[',', ')'] <:+: text := by
  induction text with
  | nil => simp [dropSpareCommas]
  | cons c rest ih =>
    have first : [',', ')'] <+: c :: rest ↔ c = ',' ∧ rest.head? = some ')' := by
      cases rest with
      | nil => simp
      | cons d rest => simp [eq_comm]
    rw [List.infix_cons_iff, first]
    by_cases spare : c = ',' ∧ rest.head? = some ')'
    · have shorter := length_dropSpareCommas_le rest
      have changed : dropSpareCommas (c :: rest) ≠ c :: rest := by
        intro same
        rw [dropSpareCommas_cons_of_spare spare] at same
        rw [same, List.length_cons] at shorter
        omega
      exact iff_of_false changed fun clean => clean (Or.inl spare)
    · rw [dropSpareCommas_cons spare, List.cons.injEq, ih]
      simp [spare]

end CircuitGrading.Text
