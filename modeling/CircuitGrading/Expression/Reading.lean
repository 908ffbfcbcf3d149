import CircuitGrading.Circuit.Basic
import CircuitGrading.Expression.Call
import CircuitGrading.Text.Condensed

/-!
# Reading expressions

An expression is a capital letter or a call of a gate whose arguments are expressions. The last
character decides which of the two is read; a call is cut first, then its name is looked up, then
its arguments are counted, and then they are read from left to right. The first error in this order
is reported.
-/

namespace CircuitGrading.Circuit

/-- Read a text that does not end with a closing bracket; it must be a single letter. -/
def parseLetter : Text → Except SyntaxError Circuit
  | [] => .error .missing
  | [c] =>
    match Letter.ofChar? c with
    | some letter => .ok (input letter)
    | none => .error (.notLetter c)
  | expression => .error (.badEnding expression)

/-- Read an expression, in capital letters and without blanks. -/
def parse (text : Text) : Except SyntaxError Circuit :=
  if text.getLast? = some ')' then
    match _done : Call.cut text with
    | .error error => .error error
    | .ok call =>
      match Gate.ofName? call.name with
      | none => .error (.unknownGate call.name)
      | some gate =>
        match gate, _given : call.arguments with
        | .not, [operand] =>
          match parse operand with
          | .error error => .error error
          | .ok child => .ok (not child)
        | .binary gate, [first, second] =>
          match parse first with
          | .error error => .error error
          | .ok left =>
            match parse second with
            | .error error => .error error
            | .ok right => .ok (binary gate left right)
        | gate, arguments => .error (.wrongArity gate arguments.length gate.arity)
  else parseLetter text
termination_by text.length
decreasing_by
  all_goals exact Call.length_lt_of_mem_arguments _done (by simp [_given])

/-- Read a raw text: blanks are ignored and either case may be used. -/
def read (text : Text) : Except SyntaxError Circuit := parse text.condense

end CircuitGrading.Circuit
