import CircuitGrading.Proofs.Reading

/-!
# Where refusals come from

The scan of a call passes over everything that keeps its brackets between none and the limit, so the
first bracket that leaves this range decides how the scan ends, and without such a bracket the call
stays open (`Call.Uncut`, `Call.cut_eq_error_iff`). The reader refuses a text for its ending, for
its brackets, for the name or the number of arguments of its call, or for one of its arguments.
`Circuit.Refused` has one case for each, and every error of the reader arises in this way
(`Circuit.refused_of_parse`); facts about errors are therefore proved case by case, by induction on
the refusal.
-/

namespace CircuitGrading

namespace Call

open Text

/-- A scan passes over a piece that keeps the call open and the bracket limit, whatever arguments
the piece separates. -/
theorem exists_cutArguments_append (whole rest current : Text) (complete : List Text)
    {inner after : Nat} {piece : Text} (shallow : inner < bracketLimit)
    (within : Within (-inner) (bracketLimit - 1 - inner) piece)
    (next : (after : Int) = inner + level piece) :
    ∃ current' complete', cutArguments whole inner current complete (piece ++ rest) =
      cutArguments whole after current' complete' rest := by
  induction piece generalizing inner current complete with
  | nil =>
    rw [level_nil] at next
    obtain rfl : after = inner := by omega
    exact ⟨current, complete, rfl⟩
  | cons c piece ih =>
    obtain ⟨-, later⟩ := within_cons.mp within
    have bounds := later [] List.nil_prefix
    rw [level_nil] at bounds
    rw [level_cons] at next
    rw [List.cons_append]
    rcases cutArguments_cons whole current complete (piece ++ rest) shallow c with
      ⟨inner', step, shallow', -, scan⟩ | ⟨rfl, rfl, scan⟩ | ⟨rfl, rfl, -⟩ | ⟨rfl, full, -⟩
    · rw [scan]
      exact ih _ _ shallow' (later.mono (by omega) (by omega)) (by omega)
    · have comma : level [','] = 0 := rfl
      rw [scan]
      exact ih _ _ shallow (later.mono (by omega) (by omega)) (by omega)
    · have closing : level [')'] = -1 := rfl
      omega
    · have opening : level ['('] = 1 := rfl
      omega

/-- A scan that starts behind the bracket of a call passes over a text within the limit. -/
theorem exists_cutArguments_of_within (whole rest : Text) {after : Nat} {piece : Text}
    (within : Within 0 (bracketLimit - 1) piece) (next : (after : Int) = level piece) :
    ∃ current complete, cutArguments whole 0 [] [] (piece ++ rest) =
      cutArguments whole after current complete rest := by
  have start : Within (-(0 : Nat)) (bracketLimit - 1 - (0 : Nat)) piece :=
    within.mono (by omega) (by omega)
  exact exists_cutArguments_append whole rest [] [] (by decide) start (by omega)

section Opened

variable {name : Text} (plain : Plain name)

include plain

/-- A call that is never closed is refused with the number of its open brackets. -/
theorem cut_of_within {rest : Text} (within : Within 0 (bracketLimit - 1) rest) :
    cut (name ++ '(' :: rest) =
      .error (.unclosed (name ++ '(' :: rest) ((level rest).toNat + 1)) := by
  have nonnegative := (within rest List.prefix_rfl).1
  obtain ⟨current, complete, scan⟩ := exists_cutArguments_of_within (name ++ '(' :: rest) [] within
    (Int.toNat_of_nonneg nonnegative)
  rw [List.append_nil] at scan
  rw [cut_of_opening plain, scan, cutArguments]
  rfl

/-- A call with one bracket too many is refused for the limit. -/
theorem cut_of_leaving_above {front : Text} (rest : Text)
    (within : Within 0 (bracketLimit - 1) front) (full : level front = bracketLimit - 1) :
    cut (name ++ '(' :: (front ++ '(' :: rest)) = .error (.tooDeep bracketLimit) := by
  have next : ((bracketLimit - 1 : Nat) : Int) = level front := by rw [full]; rfl
  obtain ⟨current, complete, scan⟩ := exists_cutArguments_of_within
    (name ++ '(' :: (front ++ '(' :: rest)) ('(' :: rest) within next
  rw [cut_of_opening plain, scan, cutArguments_opening, if_pos (by decide)]
  rfl

/-- What the cut gives for a call that is closed with some text behind it, which may be empty. -/
theorem cut_of_leaving_below {front : Text} (rest : Text)
    (within : Within 0 (bracketLimit - 1) front) (closed : level front = 0) :
    ∃ call, cut (name ++ '(' :: (front ++ ')' :: rest)) =
      if rest = [] then .ok call
      else .error (.badEnding (name ++ '(' :: (front ++ ')' :: rest))) := by
  have next : ((0 : Nat) : Int) = level front := closed.symm
  obtain ⟨current, complete, scan⟩ := exists_cutArguments_of_within
    (name ++ '(' :: (front ++ ')' :: rest)) (')' :: rest) within next
  refine ⟨⟨name, finish current complete⟩, ?_⟩
  rw [cut_of_opening plain, scan, cutArguments_close]
  by_cases last : rest = []
  · rw [if_pos last, if_pos last]
    rfl
  · rw [if_neg last, if_neg last]
    rfl

end Opened

/-- How the brackets of a text keep it from being a call. -/
inductive Uncut : Text → SyntaxError → Prop where
  /-- The first bracket closes. -/
  | stray {name rest : Text} (plain : Plain name) :
      Uncut (name ++ ')' :: rest) (.strayClosing (name ++ ')' :: rest))
  /-- Behind the first bracket the text never leaves the range of the limit. -/
  | unclosed {name rest : Text} (plain : Plain name) (within : Within 0 (bracketLimit - 1) rest) :
      Uncut (name ++ '(' :: rest) (.unclosed (name ++ '(' :: rest) ((level rest).toNat + 1))
  /-- Behind the first bracket the text leaves the range upwards. -/
  | deep {name front rest : Text} (plain : Plain name)
      (within : Within 0 (bracketLimit - 1) front) (full : level front = bracketLimit - 1) :
      Uncut (name ++ '(' :: (front ++ '(' :: rest)) (.tooDeep bracketLimit)
  /-- The call is closed before the last character. -/
  | early {name front rest : Text} (plain : Plain name)
      (within : Within 0 (bracketLimit - 1) front) (closed : level front = 0) (more : rest ≠ []) :
      Uncut (name ++ '(' :: (front ++ ')' :: rest))
        (.badEnding (name ++ '(' :: (front ++ ')' :: rest)))

/-- A text with a closing bracket at its end is refused by the cut exactly for its brackets. -/
theorem cut_eq_error_iff {text : Text} {error : SyntaxError} (ending : text.getLast? = some ')') :
    cut text = .error error ↔ Uncut text error := by
  constructor
  · intro failed
    rcases plain_or_exists_first_bracket text with plain | ⟨name, rest, plain, rfl | rfl⟩
    · obtain ⟨front, rfl⟩ := List.getLast?_eq_some_iff.mp ending
      exact absurd rfl (plain ')' (List.mem_append_right front List.mem_cons_self)).2
    · have start : (0 : Int) ≤ 0 ∧ 0 ≤ (bracketLimit : Int) - 1 := by decide
      rcases within_or_exists_leaving start rest with
        within | ⟨front, rest, within, ⟨rfl, full⟩ | ⟨rfl, closed⟩⟩
      · rw [cut_of_within plain within] at failed
        obtain rfl := Except.error.inj failed
        exact .unclosed plain within
      · rw [cut_of_leaving_above plain rest within full] at failed
        obtain rfl := Except.error.inj failed
        exact .deep plain within full
      · obtain ⟨call, left⟩ := cut_of_leaving_below plain rest within closed
        rw [left] at failed
        by_cases last : rest = []
        · rw [if_pos last] at failed
          contradiction
        · rw [if_neg last] at failed
          obtain rfl := Except.error.inj failed
          exact .early plain within closed last
    · rw [cut_of_closing plain] at failed
      obtain rfl := Except.error.inj failed
      exact .stray plain
  · intro uncut
    cases uncut with
    | stray plain => exact cut_of_closing plain _
    | unclosed plain within => exact cut_of_within plain within
    | deep plain within full => exact cut_of_leaving_above plain _ within full
    | @early name front rest plain within closed more =>
      obtain ⟨call, left⟩ := cut_of_leaving_below plain rest within closed
      rw [left, if_neg more]

/-- An argument of a call can be cut out of it. -/
theorem separable_of_mem_arguments {text argument : Text} {call : Call}
    (called : cut text = .ok call) (member : argument ∈ call.arguments) : Separable argument := by
  obtain ⟨ending, wellFormed, -⟩ := cut_eq_ok_iff.mp called
  exact wellFormed.separable argument member

end Call

namespace Circuit

open Text Call

/-- Why a text is no letter: it has no character, one that names no letter, or more than one. -/
theorem of_parseLetter_error {text : Text} {error : SyntaxError}
    (failed : parseLetter text = .error error) :
    (text = [] ∧ error = .missing) ∨
    (∃ c, text = [c] ∧ Letter.ofChar? c = none ∧ error = .notLetter c) ∨
    (2 ≤ text.length ∧ error = .badEnding text) := by
  unfold parseLetter at failed
  split at failed
  · exact Or.inl ⟨rfl, (Except.error.inj failed).symm⟩
  · rename_i c
    split at failed
    · contradiction
    · rename_i unnamed
      exact Or.inr (Or.inl ⟨c, rfl, unnamed, (Except.error.inj failed).symm⟩)
  · rename_i some more
    refine Or.inr (Or.inr ⟨?_, (Except.error.inj failed).symm⟩)
    cases text with
    | nil => exact absurd rfl some
    | cons c rest =>
      cases rest with
      | nil => exact absurd rfl (more c)
      | cons d rest => simp

/-- The reader refuses the text with the error, for the text itself or for an argument of it. -/
inductive Refused : Text → SyntaxError → Prop where
  /-- The text does not end as a call, and it is no letter. -/
  | noLetter {text : Text} {error : SyntaxError} (ending : text.getLast? ≠ some ')')
      (failed : parseLetter text = .error error) : Refused text error
  /-- The text ends as a call, and its brackets are not those of a call. -/
  | noCall {text : Text} {error : SyntaxError} (ending : text.getLast? = some ')')
      (failed : cut text = .error error) : Refused text error
  /-- The text is a call of no gate. -/
  | noGate {text : Text} {call : Call} (called : cut text = .ok call)
      (unknown : Gate.ofName? call.name = none) : Refused text (.unknownGate call.name)
  /-- The text is a call of a gate that expects another number of arguments. -/
  | noArity {text : Text} {gate : Gate} {arguments : List Text}
      (called : cut text = .ok ⟨gate.name.toList, arguments⟩)
      (different : arguments.length ≠ gate.arity) :
      Refused text (.wrongArity gate arguments.length gate.arity)
  /-- The text is a call with an argument that is refused. -/
  | argument {text argument : Text} {call : Call} {error : SyntaxError}
      (called : cut text = .ok call) (member : argument ∈ call.arguments)
      (refused : Refused argument error) : Refused text error

/-- Arguments are refused for their number or for one of them. -/
theorem exists_of_parseArguments_error {gate : Gate} {arguments : List Text} {error : SyntaxError}
    (failed : parseArguments gate arguments = .error error) :
    (arguments.length ≠ gate.arity ∧ error = .wrongArity gate arguments.length gate.arity) ∨
    ∃ argument ∈ arguments, parse argument = .error error := by
  unfold parseArguments at failed
  split at failed
  · rename_i operand
    cases reading : parse operand with
    | error error' =>
      rw [reading] at failed
      obtain rfl := Except.error.inj failed
      exact Or.inr ⟨operand, List.mem_cons_self, reading⟩
    | ok child =>
      rw [reading] at failed
      contradiction
  · rename_i gate first second
    cases firstReading : parse first with
    | error error' =>
      rw [firstReading] at failed
      obtain rfl := Except.error.inj failed
      exact Or.inr ⟨first, List.mem_cons_self, firstReading⟩
    | ok left =>
      cases secondReading : parse second with
      | error error' =>
        rw [firstReading, secondReading] at failed
        obtain rfl := Except.error.inj failed
        exact Or.inr ⟨second, List.mem_cons_of_mem first List.mem_cons_self, secondReading⟩
      | ok right =>
        rw [firstReading, secondReading] at failed
        contradiction
  · rename_i notUnary notBinary
    refine Or.inl ⟨fun same => ?_, (Except.error.inj failed).symm⟩
    cases gate with
    | not =>
      obtain ⟨operand, given⟩ := List.length_eq_one_iff.mp same
      exact notUnary operand rfl given
    | binary gate =>
      obtain ⟨first, second, given⟩ := List.length_eq_two.mp same
      exact notBinary gate first second rfl given

/-- Every error of the reader is that of a refusal. -/
theorem refused_of_parse {text : Text} {error : SyntaxError} (failed : parse text = .error error) :
    Refused text error := by
  -- By the length of the text, since arguments are shorter than their call.
  induction size : text.length using Nat.strong_induction_on generalizing text with
  | h size ih =>
    subst size
    rw [parse_eq] at failed
    by_cases ending : text.getLast? = some ')'
    · rw [if_pos ending] at failed
      cases called : cut text with
      | error error' =>
        rw [called] at failed
        obtain rfl := Except.error.inj failed
        exact .noCall ending called
      | ok call =>
        rw [called] at failed
        dsimp only at failed
        cases found : Gate.ofName? call.name with
        | none =>
          rw [found] at failed
          obtain rfl := Except.error.inj failed
          exact .noGate called found
        | some gate =>
          rw [found] at failed
          rcases exists_of_parseArguments_error failed with
            ⟨different, rfl⟩ | ⟨argument, member, reading⟩
          · obtain ⟨name, arguments⟩ := call
            obtain rfl : name = gate.name.toList := Gate.ofName?_eq_some_iff.mp found
            exact .noArity called different
          · have shorter := length_lt_of_mem_arguments called member
            exact .argument called member (ih argument.length shorter reading rfl)
    · rw [if_neg ending] at failed
      exact .noLetter ending failed

end Circuit

end CircuitGrading
