import CircuitGrading.Letter
import CircuitGrading.Text.Blank

/-!
# Names of letters in raw text

The name of a letter may be written in lower case and with blanks around it. Every other text is
refused with the character that is at fault.
-/

namespace CircuitGrading

/-- Why a text does not name a letter. -/
inductive LetterNameError where
  /-- There is nothing but blanks. -/
  | blank
  /-- The character is no name, or other characters follow it. -/
  | notLetter (c : Char)
  deriving DecidableEq

/-- The wording of the error. -/
def LetterNameError.message : LetterNameError → String
  | .blank => "The input name is empty"
  | .notLetter c => "'" ++ String.ofList [c] ++ "' is not a valid input name"

namespace Letter

/-- The letter named by a character, which must be a capital letter. -/
def ofChar (c : Char) : Except LetterNameError Letter :=
  match ofChar? c with
  | some letter => .ok letter
  | none => .error (.notLetter c)

/-- The letters named by the characters of a text; the first character that is no name is
refused. -/
def listOfText (text : Text) : Except LetterNameError (List Letter) := text.mapM ofChar

/-- The letter named by a raw text: one character between blanks, in either case. -/
def read (text : Text) : Except LetterNameError Letter :=
  match text.trim with
  | [] => .error .blank
  | [c] => ofChar c.toUpper
  | c :: _ :: _ => .error (.notLetter c)

end Letter

end CircuitGrading
