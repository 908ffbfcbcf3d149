import CircuitGrading.Text.Basic

/-!
# Bracket levels

The level of a text is the number of brackets that it leaves open. A text is closed when it can
stand as an argument of a call: it opens every bracket before it closes it, leaves none open, and
has commas only inside brackets.
-/

namespace CircuitGrading

/-- The number of opening brackets less the number of closing brackets. -/
def Text.level (text : Text) : Int := text.count '(' - text.count ')'

/-- No beginning of the text has a level above the bound. -/
def Text.LevelAtMost (bound : Nat) (text : Text) : Prop :=
  ∀ front, front <+: text → Text.level front ≤ bound

/-- The text can be an argument of a call. -/
structure Text.Closed (text : Text) : Prop where
  /-- There are characters. -/
  nonempty : text ≠ []
  /-- Every bracket is opened before it is closed. -/
  opened : ∀ front, front <+: text → 0 ≤ Text.level front
  /-- No bracket is left open. -/
  balanced : Text.level text = 0
  /-- Every comma is inside brackets. -/
  enclosed : ∀ front rest, text = front ++ ',' :: rest → 0 < Text.level front

namespace Text

/-- No brackets are open before the first character. -/
@[simp] theorem level_nil : level [] = 0 := rfl

/-- The level of a text with a suffix is the sum of the levels. -/
@[simp] theorem level_append (left right : Text) :
    level (left ++ right) = level left + level right := by
  simp only [level, List.count_append]
  omega

/-- An opening bracket raises the level by one. -/
@[simp] theorem level_cons_opening (text : Text) : level ('(' :: text) = level text + 1 := by
  simp only [level, List.count_cons_self, List.count_cons_of_ne (show '(' ≠ ')' by decide)]
  omega

/-- A closing bracket lowers the level by one. -/
@[simp] theorem level_cons_closing (text : Text) : level (')' :: text) = level text - 1 := by
  simp only [level, List.count_cons_self, List.count_cons_of_ne (show ')' ≠ '(' by decide)]
  omega

/-- No other character changes the level. -/
theorem level_cons_of_not_bracket {c : Char} (text : Text) (opening : c ≠ '(')
    (closing : c ≠ ')') : level (c :: text) = level text := by
  simp only [level, List.count_cons_of_ne opening, List.count_cons_of_ne closing]

end Text

end CircuitGrading
