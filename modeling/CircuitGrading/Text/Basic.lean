/-!
# Texts

A text is a list of characters. Expressions are read from texts and written as texts; the
fixed pieces of both, decimal numbers and lists with commas between their members, are here.
-/

namespace CircuitGrading

/-- A sequence of Unicode characters. -/
abbrev Text : Type := List Char

namespace Text

/-- The decimal digits of a number, without leading zeros; zero is `0`. -/
def decimal (number : Nat) : Text := Nat.toDigits 10 number

/-- A number in decimal digits, as a string. -/
def decimalString (number : Nat) : String := String.ofList (decimal number)

/-- The digits of a number read back as the number. -/
theorem ofDigitChars_decimal (number : Nat) : Nat.ofDigitChars 10 (decimal number) 0 = number :=
  Nat.ofDigitChars_toDigits (by decide) (by decide)

/-- Two numbers with the same digits are the same number. -/
theorem decimal_injective {left right : Nat} (same : decimal left = decimal right) :
    left = right := by
  rw [← ofDigitChars_decimal left, same, ofDigitChars_decimal]

/-- A decimal number holds digits only. -/
theorem isDigit_of_mem_decimal {number : Nat} {c : Char} (member : c ∈ decimal number) :
    c.isDigit = true :=
  Nat.isDigit_of_mem_toDigits (by decide) (by decide) member

/-- A decimal number is never empty. -/
theorem decimal_ne_nil (number : Nat) : decimal number ≠ [] :=
  Nat.toDigits_ne_nil

/-- The lowest `width` binary digits of a number, most significant first. -/
def binary (width number : Nat) : Text :=
  (List.range width).map fun position =>
    if number.testBit (width - 1 - position) then '1' else '0'

/-- A binary text has exactly the asked number of digits. -/
@[simp] theorem length_binary (width number : Nat) : (binary width number).length = width := by
  simp [binary]

/-- The given texts in order, with a comma between neighbours. -/
def commaSeparated (texts : List Text) : Text := List.intercalate [','] texts

end Text

end CircuitGrading
