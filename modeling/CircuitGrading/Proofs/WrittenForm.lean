import CircuitGrading.Proofs.Reading

/-!
# The written form is faithful

The written form of a circuit is an expression of the circuit and of no other, at any depth. It is
in capital letters and has no blanks, so condensing it changes nothing
(`Circuit.condense_expression`). The reader gives the circuit back, or refuses it for the number of
its brackets alone: below the first bracket of a circuit that is too deep, the scan meets the limit
before it can close the call (`Spells.parse_tooDeep`).
-/

namespace CircuitGrading

open Text

namespace Text

/-- A character in front of the small letters has no uppercase form of its own. -/
theorem uppercase_of_lt {c : Char} (low : c.toNat < 0x61) : uppercase c = c := by
  have first : ∀ run ∈ uppercaseRuns, 0x61 ≤ run.first := by decide +kernel
  have none : uppercaseRuns.findSome? (fun run => run.form? c.toNat) = none := by
    rw [List.findSome?_eq_none_iff]
    intro run member
    have above := first run member
    rw [UppercaseRun.form?, if_neg (by omega)]
  rw [uppercase, none]

/-- A character between the last blank and the control characters of the ASCII range is no
blank. -/
theorem isBlank_eq_false {c : Char} (low : 0x20 < c.toNat) (high : c.toNat < 0x85) :
    isBlank c = false := by
  rw [isBlank, List.any_eq_false]
  intro range member
  have outside : ∀ range ∈ blankRanges, range.2 ≤ 0x20 ∨ 0x85 ≤ range.1 := by decide
  have distance := outside range member
  simp only [Bool.and_eq_true, decide_eq_true_eq]
  omega

/-- A text of capital letters and signs is condensed. -/
theorem condense_eq_self {text : Text}
    (capital : ∀ c ∈ text, 0x20 < c.toNat ∧ c.toNat < 0x61) : condense text = text := by
  have solid : text.filter (fun c => !isBlank c) = text := by
    rw [List.filter_eq_self]
    intro c member
    obtain ⟨low, high⟩ := capital c member
    rw [isBlank_eq_false low (by omega), Bool.not_false]
  rw [condense, solid]
  calc
    text.map uppercase = text.map id :=
      List.map_congr_left fun c member => uppercase_of_lt (capital c member).2
    _ = text := List.map_id text

end Text

/-- A character of a call is of its name, of its operands, or a sign. -/
theorem EndsCall.mem_call {name operands ending : Text} {c : Char} (ends : EndsCall ending)
    (member : c ∈ name ++ '(' :: (operands ++ ending)) :
    c ∈ name ∨ c ∈ operands ∨ c = '(' ∨ c = ')' ∨ c = ',' := by
  have signs : c ∈ ending → c = ')' ∨ c = ',' := by
    rcases ends with rfl | rfl
    · exact fun last => Or.inl (List.mem_singleton.mp last)
    · exact fun last => (List.mem_pair.mp last).symm
  rcases List.mem_append.mp member with named | body
  · exact Or.inl named
  rcases List.mem_cons.mp body with opening | body
  · exact Or.inr (Or.inr (Or.inl opening))
  rcases List.mem_append.mp body with operand | last
  · exact Or.inr (Or.inl operand)
  · exact Or.inr (Or.inr (Or.inr (signs last)))

namespace Spells

variable {text : Text} {circuit : Circuit}

/-- An expression is made of capital letters, brackets and commas. -/
theorem alphabet (spells : Spells text circuit) :
    ∀ c ∈ text, c.isUpper = true ∨ c = '(' ∨ c = ')' ∨ c = ',' := by
  induction spells with
  | input letter =>
    intro c member
    rw [List.mem_singleton.mp member]
    exact Or.inl letter.isUpper_char
  | not _ ends ih =>
    intro c member
    rcases ends.mem_call member with named | inside | sign
    · exact Or.inl (Gate.isUpper_of_mem_name named)
    · exact ih c inside
    · exact Or.inr sign
  | @binary gate first second left right ending _ _ ends firstIH secondIH =>
    intro c member
    rw [← commaSeparated_pair] at member
    rcases ends.mem_call member with named | inside | sign
    · have name : c ∈ (Gate.binary gate).name.toList := named
      exact Or.inl (Gate.isUpper_of_mem_name name)
    · rw [← List.append_nil (commaSeparated [first, second]), commaSeparated_pair] at inside
      rcases List.mem_append.mp inside with inFirst | rest
      · exact firstIH c inFirst
      rcases List.mem_cons.mp rest with comma | inSecond
      · exact Or.inr (Or.inr (Or.inr comma))
      · rw [List.append_nil] at inSecond
        exact secondIH c inSecond
    · exact Or.inr sign

/-- Condensing an expression changes nothing. -/
theorem condense_eq (spells : Spells text circuit) : text.condense = text := by
  refine condense_eq_self fun c member => ?_
  rcases spells.alphabet c member with capital | rfl | rfl | rfl
  · have range : 'A'.val ≤ c.val ∧ c.val ≤ 'Z'.val := of_decide_eq_true capital
    have low : 65 ≤ c.toNat := range.1
    have high : c.toNat ≤ 90 := range.2
    omega
  · decide
  · decide
  · decide

/-- An expression of a circuit that is too deep opens too many brackets before it closes the first
one, whatever the shape of the circuit. -/
theorem parse_tooDeep (spells : Spells text circuit) (deep : bracketLimit < circuit.depth) :
    Circuit.parse text = .error (.tooDeep bracketLimit) := by
  have positive : 0 < bracketLimit := by decide
  obtain ⟨name, operands, ending, plain, ends, nested, rfl⟩ := spells.exists_call (by omega)
  obtain ⟨front, beginning, reached⟩ := nested.deepest
  have opened : ∀ early, early <+: front → 0 ≤ ((0 : Nat) : Int) + level early := by
    intro early within
    have bound := (nested.within early (within.trans beginning)).1
    omega
  have scan : Call.cutArguments (name ++ '(' :: (operands ++ ending)) 0 [] []
      (operands ++ ending) = .error (.tooDeep bracketLimit) :=
    Call.cutArguments_tooDeep _ positive (beginning.trans (List.prefix_append operands ending))
      opened (by omega)
  have failed : Call.cut (name ++ '(' :: (operands ++ ending)) =
      .error (.tooDeep bracketLimit) := by
    rw [Call.cut_of_opening plain, scan]
    rfl
  exact Circuit.parse_of_cut_error (ends.getLast?_call name operands) failed

end Spells

namespace Circuit

/-- The written form of a circuit is condensed. -/
theorem condense_expression (circuit : Circuit) :
    circuit.expression.condense = circuit.expression :=
  (spells_expression circuit).condense_eq

/-- The written form of a circuit reads back as the circuit, as it is and as a raw text, unless the
circuit is deeper than the bracket limit, which is then the error; condensing leaves the written
form as it is, and circuits with the same written form are the same. -/
theorem expression_faithful (circuit : Circuit) :
    (circuit.depth ≤ 512 →
      parse circuit.expression = .ok circuit ∧ read circuit.expression = .ok circuit) ∧
    (512 < circuit.depth →
      parse circuit.expression = .error (.tooDeep 512) ∧
        read circuit.expression = .error (.tooDeep 512)) ∧
    circuit.expression.condense = circuit.expression ∧
    ∀ other : Circuit, circuit.expression = other.expression → circuit = other := by
  have spells : Spells circuit.expression circuit := spells_expression circuit
  have raw : read circuit.expression = parse circuit.expression := by
    rw [read, condense_expression]
  refine ⟨fun shallow => ?_, fun deep => ?_, condense_expression circuit, fun other same => ?_⟩
  · have done := parse_of_spells spells shallow
    exact ⟨done, raw.trans done⟩
  · have failed := spells.parse_tooDeep deep
    exact ⟨failed, raw.trans failed⟩
  · rw [same] at spells
    exact spells.unique (spells_expression other)

end Circuit

end CircuitGrading
