import CircuitGrading.Gate

/-!
# Errors in expressions

Each error names its cause and holds the piece of text that is at fault; the wording is in
`SyntaxError.message` alone.
-/

namespace CircuitGrading

/-- Why a text is not an expression. -/
inductive SyntaxError where
  /-- There is no text where an expression should be. -/
  | missing
  /-- The expression ends neither as a letter nor with the closing bracket of its call. -/
  | badEnding (expression : Text)
  /-- The only character of the expression is not a letter. -/
  | notLetter (c : Char)
  /-- A closing bracket comes before any opening bracket. -/
  | strayClosing (expression : Text)
  /-- Brackets are still open at the end of the expression. -/
  | unclosed (expression : Text) (level : Nat)
  /-- More brackets are open at once than the limit allows. -/
  | tooDeep (limit : Nat)
  /-- A gate has another number of arguments than it expects. -/
  | wrongArity (gate : Gate) (found expected : Nat)
  /-- No gate has the name. -/
  | unknownGate (name : Text)
  deriving DecidableEq

/-- The wording of the error. -/
def SyntaxError.message : SyntaxError → String
  | .missing => "Expression is empty"
  | .badEnding expression =>
    "Expression '" ++ String.ofList expression ++ "' is invalid: invalid ending"
  | .notLetter c =>
    "Expression is invalid: '" ++ String.ofList [c] ++ "' is not a valid input (A-Z)"
  | .strayClosing expression =>
    "Expression '" ++ String.ofList expression ++ "' is invalid: unbalanced closing bracket"
  | .unclosed expression level =>
    "Expression '" ++ String.ofList expression ++ "' is invalid: " ++ Text.decimalString level ++
      " unclosed bracket(s)"
  | .tooDeep limit =>
    "Expression is invalid: more than " ++ Text.decimalString limit ++ " nested brackets"
  | .wrongArity gate found expected =>
    "Expression is invalid: gate " ++ gate.name ++ " expects " ++ Text.decimalString expected ++
      " argument(s), found " ++ Text.decimalString found
  | .unknownGate name => "Expression is invalid: unknown gate '" ++ String.ofList name ++ "'"

end CircuitGrading
