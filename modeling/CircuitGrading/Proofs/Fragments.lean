import CircuitGrading.Proofs.BracketErrors

/-!
# The fragments in errors

Every error carries a true piece of the text that is refused. Arguments are pieces of their call
(`Call.isInfix_of_mem_arguments`), so a fragment that is found in an argument is found in the whole;
an argument without characters leaves two signs next to each other (`Call.comma_of_nil_mem`); and
the errors that speak of the whole text never come from an argument. What remains is one case for
each way in which a text is refused (`Circuit.error_true_of_parse`).
-/

namespace CircuitGrading

open Text

/-- The first bracket of the text opens, and the bracket that closes it is not the last
character. -/
def Text.ClosesEarly (text : Text) : Prop :=
  ∃ name body rest, Plain name ∧ text = name ++ '(' :: (body ++ ')' :: rest) ∧
    (∀ front, front <+: body → 0 ≤ level front) ∧ level body = 0 ∧ rest ≠ []

/-- What the error says is true of the text. -/
def SyntaxError.TrueOf (text : Text) : SyntaxError → Prop
  | .missing => text = [] ∨ "(,".toList <:+: text ∨ ",,".toList <:+: text
  | .badEnding fragment =>
    fragment <:+: text ∧ 2 ≤ fragment.length ∧
      (fragment.getLast? ≠ some ')' ∨ fragment.ClosesEarly)
  | .notLetter c => c ∈ text ∧ c ≠ ')' ∧ ¬('A' ≤ c ∧ c ≤ 'Z')
  | .strayClosing fragment => fragment = text
  | .unclosed fragment _ => fragment = text
  | .tooDeep limit => limit = 512
  | .wrongArity gate found expected =>
    gate.name.toList ++ ['('] <:+: text ∧ expected = gate.arity ∧ found ≠ expected
  | .unknownGate name =>
    name ++ ['('] <:+: text ∧ Plain name ∧ ∀ gate : Gate, gate.name.toList ≠ name

/-- A character names no letter exactly if it is none of the capital letters. -/
theorem Letter.ofChar?_eq_none_iff {c : Char} : ofChar? c = none ↔ ¬('A' ≤ c ∧ c ≤ 'Z') := by
  rw [← not_iff_not, ← ne_eq, Option.ne_none_iff_exists', not_not]
  constructor
  · rintro ⟨letter, named⟩
    rw [ofChar?_eq_some_iff.mp named]
    exact ⟨letter.le_char, letter.char_le⟩
  · rintro ⟨low, high⟩
    have lowNat : 65 ≤ c.toNat := low
    have highNat : c.toNat ≤ 90 := high
    exact ⟨⟨⟨c.toNat - 65, by omega⟩⟩, by rw [ofChar?, if_pos low, ofIndex?, dif_pos]⟩

/-- Texts are pieces of the text that has them between commas. -/
theorem Text.isInfix_commaSeparated {text : Text} {texts : List Text} (member : text ∈ texts) :
    text <:+: commaSeparated texts := by
  induction texts with
  | nil => exact absurd member List.not_mem_nil
  | cons first rest ih =>
    by_cases last : rest = []
    · subst last
      obtain rfl := List.mem_singleton.mp member
      rw [commaSeparated_singleton]
    · rw [commaSeparated_cons first last]
      rcases List.mem_cons.mp member with rfl | later
      · exact (List.prefix_append text _).isInfix
      · exact (ih later).trans ⟨first ++ [','], [], by simp⟩

namespace Call

/-- Where an argument has no characters, a comma stands in front or two commas stand next to each
other. -/
theorem comma_of_nil_mem {arguments : List Text} {ending : Text} (member : [] ∈ arguments)
    (ends : EndsArguments arguments ending) :
    [','] <+: commaSeparated arguments ++ ending ∨
      [',', ','] <:+: commaSeparated arguments ++ ending := by
  induction arguments with
  | nil => exact absurd member List.not_mem_nil
  | cons first rest ih =>
    by_cases last : rest = []
    · subst last
      obtain rfl := List.mem_singleton.mp member
      rcases ends with ⟨-, characters⟩ | ⟨rfl, -⟩
      · exact absurd rfl characters
      · exact Or.inl ⟨[')'], rfl⟩
    · rw [commaSeparated_cons first last, List.append_assoc, List.cons_append]
      rcases List.mem_cons.mp member with rfl | later
      · exact Or.inl ⟨_, rfl⟩
      · rcases ih later (ends.tail last) with ⟨text, front⟩ | within
        · rw [← front]
          exact Or.inr ⟨first, text, by simp⟩
        · exact Or.inr (within.trans ⟨first ++ [','], [], by simp⟩)

variable {text argument : Text} {call : Call}

/-- An argument is a piece of its call. -/
theorem isInfix_of_mem_arguments (called : cut text = .ok call)
    (member : argument ∈ call.arguments) : argument <:+: text := by
  obtain ⟨ending, -, rfl⟩ := cut_eq_ok_iff.mp called
  exact (isInfix_commaSeparated member).trans ⟨call.name ++ ['('], ending, by simp⟩

/-- The name of a call and its bracket are a piece of the call. -/
theorem isInfix_of_name (called : cut text = .ok call) : call.name ++ ['('] <:+: text := by
  obtain ⟨ending, -, rfl⟩ := cut_eq_ok_iff.mp called
  exact ⟨[], commaSeparated call.arguments ++ ending, by simp⟩

/-- A call with an argument that has no characters has a comma behind its bracket or behind another
comma. -/
theorem isInfix_of_nil_mem_arguments (called : cut text = .ok call) (member : [] ∈ call.arguments) :
    "(,".toList <:+: text ∨ ",,".toList <:+: text := by
  obtain ⟨ending, wellFormed, rfl⟩ := cut_eq_ok_iff.mp called
  rcases comma_of_nil_mem member wellFormed.ends with ⟨rest, front⟩ | within
  · rw [← front]
    exact Or.inl ⟨call.name, rest, by simp⟩
  · exact Or.inr (within.trans ⟨call.name ++ ['('], [], by simp⟩)

end Call

/-- What an error that is not in the brackets says of an argument is true of the call. -/
theorem SyntaxError.TrueOf.of_argument {text argument : Text} {call : Call} {error : SyntaxError}
    (called : Call.cut text = .ok call) (member : argument ∈ call.arguments)
    (brackets : ¬error.OfBrackets) (said : error.TrueOf argument) : error.TrueOf text := by
  have piece := Call.isInfix_of_mem_arguments called member
  cases error with
  | missing =>
    rcases said with rfl | first | later
    · exact Or.inr (Call.isInfix_of_nil_mem_arguments called member)
    · exact Or.inr (Or.inl (first.trans piece))
    · exact Or.inr (Or.inr (later.trans piece))
  | badEnding fragment => exact ⟨said.1.trans piece, said.2⟩
  | notLetter c => exact ⟨piece.subset said.1, said.2⟩
  | wrongArity gate found expected => exact ⟨said.1.trans piece, said.2⟩
  | unknownGate name => exact ⟨said.1.trans piece, said.2⟩
  | strayClosing fragment => exact absurd trivial brackets
  | unclosed fragment level => exact absurd trivial brackets
  | tooDeep limit => exact absurd trivial brackets

namespace Circuit

open Call

/-- A text is refused with errors that are true of it. -/
theorem Refused.trueOf {text : Text} {error : SyntaxError} (refused : Refused text error) :
    error.TrueOf text := by
  induction refused with
  | @noLetter text error ending failed =>
    rcases of_parseLetter_error failed with ⟨rfl, rfl⟩ | ⟨c, rfl, unnamed, rfl⟩ | ⟨long, rfl⟩
    · exact Or.inl rfl
    · exact ⟨List.mem_singleton_self c, fun closing => ending (congrArg some closing),
        Letter.ofChar?_eq_none_iff.mp unnamed⟩
    · exact ⟨List.infix_rfl, long, Or.inl ending⟩
  | noCall ending failed =>
    cases (cut_eq_error_iff ending).mp failed with
    | stray => exact rfl
    | unclosed => exact rfl
    | deep => exact rfl
    | @early name body rest plain within closed more =>
      have long : 2 ≤ (name ++ '(' :: (body ++ ')' :: rest)).length := by
        simp only [List.length_append, List.length_cons]
        omega
      exact ⟨List.infix_rfl, long, Or.inr ⟨name, body, rest, plain, rfl,
        fun front beginning => (within front beginning).1, closed, more⟩⟩
  | @noGate text call called unknown =>
    obtain ⟨ending, wellFormed, -⟩ := cut_eq_ok_iff.mp called
    refine ⟨isInfix_of_name called, wellFormed.plain, fun gate same => ?_⟩
    rw [← same, Gate.ofName?_name] at unknown
    contradiction
  | noArity called different => exact ⟨isInfix_of_name called, rfl, different⟩
  | argument called member refused ih =>
    exact ih.of_argument called member
      (refused.not_ofBrackets (separable_of_mem_arguments called member))

/-- Every error is true of the text that is read. A missing expression is an empty text or one with
a comma behind a bracket or a comma; an ending is wrong in a piece of the text that does not end
with a closing bracket or closes its first bracket earlier; a character that is no letter occurs in
the text and is neither a closing bracket nor a capital letter; an unknown name and the name of a
gate with a wrong number of arguments stand in front of an opening bracket; and the errors in
brackets speak of the whole text and of the limit. -/
theorem error_true_of_parse {text : Text} {error : SyntaxError}
    (failed : parse text = .error error) : error.TrueOf text :=
  (refused_of_parse failed).trueOf

/-- Two levels down, the second operand closes its first bracket early. -/
theorem error_true_of_parse_early_close :
    let text : Text := "AND(NOT(A),OR(B,(C)(É)))".toList
    let fragment : Text := "(C)(É)".toList
    parse text = .error (.badEnding fragment) ∧ fragment <:+: text ∧ 2 ≤ fragment.length ∧
      (fragment.getLast? ≠ some ')' ∨ fragment.ClosesEarly) := by
  intro text fragment
  have failed : parse text = .error (.badEnding fragment) := by decide +kernel
  exact ⟨failed, error_true_of_parse failed⟩

end Circuit

end CircuitGrading
