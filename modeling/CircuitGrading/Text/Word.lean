import CircuitGrading.Text.Basic

/-!
# Words

A word of a text is a run of capital letters with no capital letter next to it on either side. Every
other character parts the words in front of it from those behind it (`hasWord_append_cons`), which
is all that is needed to find the words of a text that is put together from pieces.
-/

namespace CircuitGrading.Text

/-- The last character of the text, if there is one, is no capital letter. -/
def EndsApart (text : Text) : Prop := ∀ c, text.getLast? = some c → c.isUpper = false

/-- The first character of the text, if there is one, is no capital letter. -/
def StartsApart (text : Text) : Prop := ∀ c, text.head? = some c → c.isUpper = false

/-- The word is a run of capital letters of the text, and no capital letter stands next to it. -/
def HasWord (text word : Text) : Prop :=
  word ≠ [] ∧ (∀ c ∈ word, c.isUpper = true) ∧
    ∃ front rest, text = front ++ word ++ rest ∧ EndsApart front ∧ StartsApart rest

/-- There is no character at the end of the empty text. -/
theorem endsApart_nil : EndsApart [] := by
  intro c impossible
  contradiction

/-- There is no character at the start of the empty text. -/
theorem startsApart_nil : StartsApart [] := by
  intro c impossible
  contradiction

section Parting

variable {c : Char} (apart : c.isUpper = false)

include apart

/-- Behind a character that is no capital letter, what is in front of it does not matter. -/
theorem endsApart_append_cons (left text : Text) :
    EndsApart (left ++ c :: text) ↔ EndsApart text := by
  have last : (left ++ c :: text).getLast? = some (text.getLast?.getD c) := by
    rw [List.getLast?_append, List.getLast?_cons, Option.some_or]
  rw [EndsApart, EndsApart, last]
  cases text.getLast? with
  | none => simp [apart]
  | some d => simp

/-- In front of a character that is no capital letter, what is behind it does not matter. -/
theorem startsApart_append_cons (text right : Text) :
    StartsApart (text ++ c :: right) ↔ StartsApart text := by
  rw [StartsApart, StartsApart]
  cases text with
  | nil => simp [apart]
  | cons d rest => simp

end Parting

/-- A character that is not in a piece of a text is behind the piece or in front of it. -/
theorem append_cons_eq_append_append {left right front piece rest : Text} {c : Char}
    (outside : c ∉ piece) (split : left ++ c :: right = front ++ piece ++ rest) :
    (∃ more, left = front ++ piece ++ more ∧ rest = more ++ c :: right) ∨
    ∃ more, right = more ++ piece ++ rest ∧ front = left ++ c :: more := by
  rcases List.append_eq_append_iff.mp split with ⟨more, before, tail⟩ | ⟨more, before, behind⟩
  · cases more with
    | nil =>
      rw [List.append_nil] at before
      rw [List.nil_append] at tail
      exact Or.inl ⟨[], by rw [before, List.append_nil], by rw [← tail, List.nil_append]⟩
    | cons d more =>
      obtain ⟨rfl, rfl⟩ := List.cons.inj tail
      rcases List.append_eq_append_iff.mp before with ⟨within, -, inside⟩ | ⟨within, front, inside⟩
      · exact absurd (inside ▸ List.mem_append_right within List.mem_cons_self) outside
      · cases within with
        | nil =>
          rw [List.nil_append] at inside
          exact absurd (inside ▸ List.mem_cons_self) outside
        | cons d within =>
          obtain ⟨rfl, rfl⟩ := List.cons.inj inside
          exact Or.inr ⟨within, rfl, front⟩
  · exact Or.inl ⟨more, before, behind⟩

/-- A character that is no capital letter parts the words in front of it from those behind it. -/
theorem hasWord_append_cons {left right word : Text} {c : Char} (apart : c.isUpper = false) :
    HasWord (left ++ c :: right) word ↔ HasWord left word ∨ HasWord right word := by
  constructor
  · rintro ⟨letters, capital, front, rest, split, before, behind⟩
    -- The character is not in the word, so it stands behind the word or in front of it.
    have outside : c ∉ word := by
      intro member
      rw [capital c member] at apart
      contradiction
    rcases append_cons_eq_append_append outside split with ⟨more, rfl, rfl⟩ | ⟨more, rfl, rfl⟩
    · rw [startsApart_append_cons apart] at behind
      exact Or.inl ⟨letters, capital, front, more, rfl, before, behind⟩
    · rw [endsApart_append_cons apart] at before
      exact Or.inr ⟨letters, capital, more, rest, rfl, before, behind⟩
  · rintro (⟨letters, capital, front, rest, rfl, before, behind⟩ |
      ⟨letters, capital, front, rest, rfl, before, behind⟩)
    · refine ⟨letters, capital, front, rest ++ c :: right, ?_, before, ?_⟩
      · rw [List.append_assoc]
      · exact (startsApart_append_cons apart rest right).mpr behind
    · refine ⟨letters, capital, left ++ c :: front, rest, ?_, ?_, behind⟩
      · simp only [List.append_assoc, List.cons_append]
      · exact (endsApart_append_cons apart left front).mpr before

/-- The empty text has no words. -/
theorem not_hasWord_nil (word : Text) : ¬HasWord [] word := by
  rintro ⟨letters, -, front, rest, split, -⟩
  have empty : front ++ word = [] := (List.append_eq_nil_iff.mp split.symm).1
  exact letters (List.append_eq_nil_iff.mp empty).2

/-- A text of capital letters is its only word. -/
theorem hasWord_of_capital {text word : Text} (letters : text ≠ [])
    (capital : ∀ c ∈ text, c.isUpper = true) : HasWord text word ↔ word = text := by
  constructor
  · rintro ⟨-, -, front, rest, rfl, before, behind⟩
    have noFront : front = [] := by
      rw [← List.getLast?_eq_none_iff, Option.eq_none_iff_forall_ne_some]
      intro c last
      have small := before c last
      have member : c ∈ front := List.mem_of_getLast? last
      rw [capital c (by simp [member])] at small
      contradiction
    have noRest : rest = [] := by
      rw [← List.head?_eq_none_iff, Option.eq_none_iff_forall_ne_some]
      intro c first
      have small := behind c first
      have member : c ∈ rest := List.mem_of_head? first
      rw [capital c (by simp [member])] at small
      contradiction
    rw [noFront, noRest, List.nil_append, List.append_nil]
  · rintro rfl
    refine ⟨letters, capital, [], [], ?_, endsApart_nil, startsApart_nil⟩
    rw [List.nil_append, List.append_nil]

end CircuitGrading.Text
