import CircuitGrading.Expression.Reading
import CircuitGrading.Proofs.Grammar
import Mathlib.Data.List.Basic

/-!
# What the reader accepts

The reader works on whole texts: it looks at the last character, cuts at the right commas, looks up
the name and reads the pieces (`Circuit.parse_eq`). A call whose arguments can be cut out is read
from them (`Circuit.parse_call`). The operands of an expression can be cut out as long as the depth
keeps to the bracket limit, and what was cut out and read is never deeper than that; so the reader
accepts the texts of the grammar up to that depth and no others (`Circuit.parse_eq_ok_iff`).
-/

namespace CircuitGrading

open Text

/-- Arguments end a call as the grammar says. -/
theorem Call.EndsArguments.endsCall {arguments : List Text} {ending : Text}
    (ends : Call.EndsArguments arguments ending) : EndsCall ending := by
  rcases ends with ⟨closed, -⟩ | ⟨closed, -⟩
  · exact Or.inl closed
  · exact Or.inr closed

/-- The end of a call loses no argument when the last one has characters. -/
theorem EndsCall.endsArguments {ending : Text} (ends : EndsCall ending) (front : List Text)
    {last : Text} (characters : last ≠ []) : Call.EndsArguments (front ++ [last]) ending := by
  rcases ends with closed | closed
  · refine Or.inl ⟨closed, ?_⟩
    rw [List.getLast?_concat]
    exact fun empty => characters (Option.some.inj empty)
  · exact Or.inr ⟨closed, List.append_ne_nil_of_right_ne_nil front (List.cons_ne_nil last [])⟩

namespace Circuit

open Call

/-- What is read from the arguments of a call of the gate. -/
def parseArguments : Gate → List Text → Except SyntaxError Circuit
  | .not, [operand] => (parse operand).map not
  | .binary gate, [first, second] =>
    (parse first).bind fun left => (parse second).map (binary gate left)
  | gate, arguments => .error (.wrongArity gate arguments.length gate.arity)

/-- Reading a text in terms of the texts of its arguments. -/
theorem parse_eq (text : Text) :
    parse text =
      if text.getLast? = some ')' then
        match cut text with
        | .error error => .error error
        | .ok call =>
          match Gate.ofName? call.name with
          | none => .error (.unknownGate call.name)
          | some gate => parseArguments gate call.arguments
      else parseLetter text := by
  rw [parse]
  by_cases last : text.getLast? = some ')'
  · rw [if_pos last, if_pos last]
    split
    · rename_i error failed
      rw [failed]
    · rename_i call done
      rw [done]
      dsimp only
      cases found : Gate.ofName? call.name with
      | none => rfl
      | some gate =>
        dsimp only
        -- The cases of the reader and of `parseArguments` are the same.
        split
        · rename_i operand given
          rw [given, parseArguments]
          cases parse operand <;> rfl
        · rename_i gate first second given
          rw [given, parseArguments]
          cases parse first with
          | error error => rfl
          | ok left => cases parse second <;> rfl
        · rename_i gate _ notUnary notBinary
          rw [parseArguments]
          · exact notUnary
          · exact notBinary
  · rw [if_neg last, if_neg last]

/-- A letter alone is read as the input of its name. -/
theorem parse_letter (letter : Letter) : parse [letter.char] = .ok (input letter) := by
  have last : [letter.char].getLast? ≠ some ')' :=
    fun closing => (ne_of_isUpper letter.isUpper_char).2.1 (Option.some.inj closing)
  rw [parse_eq, if_neg last, parseLetter, Letter.ofChar?_char]

/-- A call of a gate with arguments that can be cut out is read from the arguments. -/
theorem parse_call (gate : Gate) {arguments : List Text} {ending : Text}
    (separable : ∀ argument ∈ arguments, Separable argument)
    (ends : EndsArguments arguments ending) :
    parse (gate.name.toList ++ '(' :: (commaSeparated arguments ++ ending)) =
      parseArguments gate arguments := by
  have last := ends.endsCall.getLast?_call gate.name.toList (commaSeparated arguments)
  have called : cut (gate.name.toList ++ '(' :: (commaSeparated arguments ++ ending)) =
      .ok ⟨gate.name.toList, arguments⟩ :=
    cut_eq_ok_iff.mpr ⟨ending, ⟨gate.plain_name, separable, ends⟩, rfl⟩
  rw [parse_eq, if_pos last, called]
  dsimp only
  rw [Gate.ofName?_name]

/-- A call of the negation is read from its operand. -/
theorem parse_not_call {operand ending : Text} (separable : Separable operand)
    (characters : operand ≠ []) (ends : EndsCall ending) :
    parse (Gate.not.name.toList ++ '(' :: (operand ++ ending)) = (parse operand).map not := by
  have only : ∀ argument ∈ [operand], Separable argument := by
    intro argument member
    rwa [List.mem_singleton.mp member]
  have called := parse_call .not only (ends.endsArguments [] characters)
  rw [commaSeparated_singleton] at called
  rw [called, parseArguments]

/-- A call of a binary gate is read from its operands, the first one first. -/
theorem parse_binary_call (gate : BinaryGate) {first second ending : Text}
    (firstSeparable : Separable first) (secondSeparable : Separable second)
    (characters : second ≠ []) (ends : EndsCall ending) :
    parse (gate.name.toList ++ '(' :: (first ++ ',' :: (second ++ ending))) =
      (parse first).bind fun left => (parse second).map (binary gate left) := by
  have both : ∀ argument ∈ [first, second], Separable argument := by
    intro argument member
    rcases List.mem_pair.mp member with rfl | rfl
    · exact firstSeparable
    · exact secondSeparable
  have called := parse_call (.binary gate) both (ends.endsArguments [first] characters)
  rw [commaSeparated_pair] at called
  rw [← Gate.name, called, parseArguments]

/-- A text that cannot be cut is not read. -/
theorem parse_of_cut_error {text : Text} {error : SyntaxError} (last : text.getLast? = some ')')
    (failed : cut text = .error error) : parse text = .error error := by
  rw [parse_eq, if_pos last, failed]

/-- A text that is read as a letter is its name. -/
theorem exists_of_parseLetter {text : Text} {circuit : Circuit}
    (done : parseLetter text = .ok circuit) :
    ∃ letter : Letter, text = [letter.char] ∧ circuit = input letter := by
  unfold parseLetter at done
  split at done
  · contradiction
  · split at done
    · rename_i letter named
      rw [Letter.ofChar?_eq_some_iff] at named
      exact ⟨letter, by rw [named], (Except.ok.inj done).symm⟩
    · contradiction
  · contradiction

/-- Arguments that are read are as many as the gate expects, and all of them are read. -/
theorem exists_of_parseArguments {gate : Gate} {arguments : List Text} {circuit : Circuit}
    (done : parseArguments gate arguments = .ok circuit) :
    (∃ operand child, gate = .not ∧ arguments = [operand] ∧
      parse operand = .ok child ∧ circuit = not child) ∨
    (∃ binaryGate first second left right, gate = .binary binaryGate ∧
      arguments = [first, second] ∧ parse first = .ok left ∧ parse second = .ok right ∧
      circuit = binary binaryGate left right) := by
  unfold parseArguments at done
  split at done
  · rename_i operand
    cases reading : parse operand with
    | error error =>
      rw [reading] at done
      contradiction
    | ok child =>
      rw [reading] at done
      exact Or.inl ⟨operand, child, rfl, rfl, reading, (Except.ok.inj done).symm⟩
  · rename_i gate first second
    cases firstReading : parse first with
    | error error =>
      rw [firstReading] at done
      contradiction
    | ok left =>
      cases secondReading : parse second with
      | error error =>
        rw [firstReading, secondReading] at done
        contradiction
      | ok right =>
        rw [firstReading, secondReading] at done
        exact Or.inr ⟨gate, first, second, left, right, rfl, rfl, firstReading, secondReading,
          (Except.ok.inj done).symm⟩
  · contradiction

/-- A text that is read is a letter or a call of a gate whose arguments are read. -/
theorem exists_of_parse {text : Text} {circuit : Circuit} (done : parse text = .ok circuit) :
    (∃ letter : Letter, text = [letter.char] ∧ circuit = input letter) ∨
    (∃ (gate : Gate) (arguments : List Text), cut text = .ok ⟨gate.name.toList, arguments⟩ ∧
      parseArguments gate arguments = .ok circuit) := by
  rw [parse_eq] at done
  by_cases last : text.getLast? = some ')'
  · rw [if_pos last] at done
    cases called : cut text with
    | error error =>
      rw [called] at done
      contradiction
    | ok call =>
      obtain ⟨name, arguments⟩ := call
      rw [called] at done
      dsimp only at done
      cases found : Gate.ofName? name with
      | none =>
        rw [found] at done
        contradiction
      | some gate =>
        rw [found] at done
        exact Or.inr ⟨gate, arguments, by rw [Gate.ofName?_eq_some_iff.mp found], done⟩
  · rw [if_neg last] at done
    exact Or.inl (exists_of_parseLetter done)

/-- A text that is read is an expression of the circuit, which keeps to the bracket limit. -/
theorem spells_of_parse {text : Text} {circuit : Circuit} (done : parse text = .ok circuit) :
    Spells text circuit ∧ circuit.depth ≤ bracketLimit := by
  -- By the length of the text, since arguments are shorter than their call.
  induction size : text.length using Nat.strong_induction_on generalizing text circuit with
  | h size ih =>
    subst size
    rcases exists_of_parse done with ⟨letter, rfl, rfl⟩ | ⟨gate, arguments, called, reading⟩
    · exact ⟨.input letter, Nat.zero_le _⟩
    have argument : ∀ {operand : Text} {child : Circuit}, operand ∈ arguments →
        parse operand = .ok child → Spells operand child ∧ child.depth < bracketLimit := by
      intro operand child member read
      have shorter := length_lt_of_mem_arguments called member
      obtain ⟨spells, -⟩ := ih operand.length shorter read rfl
      obtain ⟨ending, wellFormed, -⟩ := cut_eq_ok_iff.mp called
      exact ⟨spells, spells.nested.depth_lt (wellFormed.separable operand member)⟩
    obtain ⟨ending, ⟨-, -, ends⟩, rfl⟩ := cut_eq_ok_iff.mp called
    rcases exists_of_parseArguments reading with ⟨operand, child, rfl, rfl, read, rfl⟩ |
      ⟨binaryGate, first, second, left, right, rfl, rfl, readLeft, readRight, rfl⟩
    · obtain ⟨spells, shallow⟩ := argument List.mem_cons_self read
      dsimp only
      rw [commaSeparated_singleton]
      refine ⟨.not spells ends.endsCall, ?_⟩
      rw [depth]
      omega
    · obtain ⟨leftSpells, leftShallow⟩ := argument List.mem_cons_self readLeft
      obtain ⟨rightSpells, rightShallow⟩ :=
        argument (List.mem_cons_of_mem first List.mem_cons_self) readRight
      dsimp only
      rw [commaSeparated_pair]
      refine ⟨.binary binaryGate leftSpells rightSpells ends.endsCall, ?_⟩
      rw [depth]
      omega

/-- An expression of a circuit that keeps to the bracket limit is read as the circuit. -/
theorem parse_of_spells {text : Text} {circuit : Circuit} (spells : Spells text circuit)
    (shallow : circuit.depth ≤ bracketLimit) : parse text = .ok circuit := by
  induction spells with
  | input letter => exact parse_letter letter
  | @not operand child ending spells ends ih =>
    rw [depth] at shallow
    rw [parse_not_call (spells.nested.separable (by omega)) spells.ne_nil ends, ih (by omega)]
    rfl
  | @binary gate first second left right ending firstSpells secondSpells ends firstIH secondIH =>
    rw [depth] at shallow
    have firstSeparable : Separable first := firstSpells.nested.separable (by omega)
    have secondSeparable : Separable second := secondSpells.nested.separable (by omega)
    rw [parse_binary_call gate firstSeparable secondSeparable secondSpells.ne_nil ends,
      firstIH (by omega), secondIH (by omega)]
    rfl

/-- A text is read as a circuit exactly when it is an expression of the circuit and the circuit
has no more than 512 gates on any path. -/
theorem parse_eq_ok_iff (text : Text) (circuit : Circuit) :
    parse text = .ok circuit ↔ Spells text circuit ∧ circuit.depth ≤ 512 := by
  constructor
  · exact spells_of_parse
  · rintro ⟨spells, shallow⟩
    exact parse_of_spells spells shallow

end Circuit

end CircuitGrading
