import CircuitGrading.Text.Blank
import CircuitGrading.Text.Uppercase

/-!
# Condensed texts

Raw expressions may hold blanks anywhere and may be written in either case. Condensing a text
removes its blanks and replaces each other character by its uppercase form; what is not a letter
stays for the reader of expressions to refuse.
-/

namespace CircuitGrading.Text

/-- The text without blanks, in upper case. -/
def condense (text : Text) : Text := (text.filter fun c => !isBlank c).map uppercase

/-- Condensing works piece by piece. -/
@[simp] theorem condense_append (left right : Text) :
    condense (left ++ right) = condense left ++ condense right := by
  simp [condense]

/-- A blank leaves no trace. -/
theorem condense_cons_of_isBlank {c : Char} (text : Text) (blank : isBlank c = true) :
    condense (c :: text) = condense text := by
  simp [condense, blank]

/-- Every other character leaves its uppercase form. -/
theorem condense_cons_of_not_isBlank {c : Char} (text : Text) (solid : isBlank c = false) :
    condense (c :: text) = uppercase c :: condense text := by
  simp [condense, solid]

end CircuitGrading.Text
