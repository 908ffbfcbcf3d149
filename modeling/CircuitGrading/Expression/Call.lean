import CircuitGrading.Expression.Error

/-!
# Calls

A call is a name followed by arguments in brackets. Cutting a text into a call takes what is before
the first bracket as the name and cuts the text inside the brackets at the commas that are not
inside further brackets; a last argument without characters is dropped. The cut looks at brackets
and commas only, so the arguments may be any texts. Each argument is shorter than the whole
(`length_lt_of_mem_arguments`), which is why reading an expression ends.
-/

namespace CircuitGrading

/-- The largest number of brackets that may be open at once. -/
def bracketLimit : Nat := 512

/-- A gate name and the texts of its arguments. -/
structure Call where
  /-- The text before the first bracket. -/
  name : Text
  /-- The texts between the commas of the call. -/
  arguments : List Text
  deriving DecidableEq

namespace Call

/-- Whether a character is an opening or a closing bracket. -/
def isBracket (c : Char) : Bool := c == '(' || c == ')'

/-- The arguments of a call that ends, from the characters of the last argument and from the
arguments before it, both in reverse order; a last argument without characters is none. -/
def finish (current : Text) (complete : List Text) : List Text :=
  if current = [] then complete.reverse else (current.reverse :: complete).reverse

/-- Cut the text after the opening bracket of a call into arguments. Inside the call's own
brackets `inner` further brackets are open; `current` holds the characters of the argument that is
being read and `complete` the arguments before it, both in reverse order. The closing bracket of
the call must end the text. -/
def cutArguments (whole : Text) (inner : Nat) (current : Text) (complete : List Text) :
    Text → Except SyntaxError (List Text)
  | [] => .error (.unclosed whole (inner + 1))
  | c :: rest =>
    if c = '(' then
      if bracketLimit < inner + 2 then .error (.tooDeep bracketLimit)
      else cutArguments whole (inner + 1) (c :: current) complete rest
    else if c = ')' then
      match inner with
      | 0 =>
        if rest = [] then .ok (finish current complete) else .error (.badEnding whole)
      | outer + 1 => cutArguments whole outer (c :: current) complete rest
    else if c = ',' ∧ inner = 0 then
      cutArguments whole inner [] (current.reverse :: complete) rest
    else cutArguments whole inner (c :: current) complete rest

/-- Cut a text into the name and the arguments of a call. -/
def cut (text : Text) : Except SyntaxError Call :=
  match text.dropWhile fun c => !isBracket c with
  | [] => .error (.unclosed text 0)
  | c :: rest =>
    if c = ')' then .error (.strayClosing text)
    else
      match cutArguments text 0 [] [] rest with
      | .error error => .error error
      | .ok arguments => .ok ⟨text.takeWhile fun c => !isBracket c, arguments⟩

/-- The arguments of a call that ends are the arguments before the last one and, unless it is
empty, the last one. -/
theorem mem_finish {current : Text} {complete : List Text} {argument : Text}
    (member : argument ∈ finish current complete) :
    argument ∈ complete ∨ argument = current.reverse := by
  unfold finish at member
  split at member
  · exact Or.inl (List.mem_reverse.mp member)
  · rcases List.mem_cons.mp (List.mem_reverse.mp member) with last | earlier
    · exact Or.inr last
    · exact Or.inl earlier

/-- Every argument is one of those complete before or is made of the characters of the current
one and of the text that is left, without its closing bracket. -/
theorem length_lt_of_mem_cutArguments {whole : Text} {inner : Nat} {current : Text}
    {complete : List Text} {text : Text} {arguments : List Text}
    (done : cutArguments whole inner current complete text = .ok arguments)
    {argument : Text} (member : argument ∈ arguments) :
    argument ∈ complete ∨ argument.length < current.length + text.length := by
  induction text generalizing inner current complete with
  | nil => simp [cutArguments] at done
  | cons c rest ih =>
    unfold cutArguments at done
    split at done
    · split at done
      · contradiction
      · rcases ih done with earlier | shorter
        · exact Or.inl earlier
        · exact Or.inr (by simp only [List.length_cons] at shorter ⊢; omega)
    · split at done
      · split at done
        · split at done
          · obtain rfl := Except.ok.inj done
            rcases mem_finish member with earlier | last
            · exact Or.inl earlier
            · exact Or.inr (by simp [last])
          · contradiction
        · rcases ih done with earlier | shorter
          · exact Or.inl earlier
          · exact Or.inr (by simp only [List.length_cons] at shorter ⊢; omega)
      · split at done
        · rcases ih done with earlier | shorter
          · rcases List.mem_cons.mp earlier with last | earlier
            · exact Or.inr (by simp only [last, List.length_reverse, List.length_cons]; omega)
            · exact Or.inl earlier
          · exact Or.inr (by simp only [List.length_cons, List.length_nil] at shorter ⊢; omega)
        · rcases ih done with earlier | shorter
          · exact Or.inl earlier
          · exact Or.inr (by simp only [List.length_cons] at shorter ⊢; omega)

/-- Every argument of a call is shorter than the text of the call. -/
theorem length_lt_of_mem_arguments {text : Text} {call : Call} (done : cut text = .ok call)
    {argument : Text} (member : argument ∈ call.arguments) : argument.length < text.length := by
  unfold cut at done
  split at done
  · contradiction
  · rename_i c rest from_bracket
    split at done
    · contradiction
    · split at done
      · contradiction
      · rename_i arguments cutDone
        obtain rfl := Except.ok.inj done
        have bound : (c :: rest).length ≤ text.length := by
          rw [← from_bracket]
          exact (List.dropWhile_sublist _).length_le
        rcases length_lt_of_mem_cutArguments cutDone member with earlier | shorter
        · simp at earlier
        · simp only [List.length_cons, List.length_nil] at bound shorter
          omega

end Call

end CircuitGrading
