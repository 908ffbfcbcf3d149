import CircuitGrading.Proofs.Reading

/-!
# Reading part by part

A call is read from what its operands are read as, whether these are expressions or not: closed
texts that keep to the bracket limit are cut out unchanged, and the leftmost error is the error of
the call. A closed text is nested like an expression (`Text.Closed.exists_nested`), so it can stand
wherever an expression can. An expression with such a text in place of an operand, at any depth,
is therefore refused with the error of the text (`Circuit.Embedded.parse_eq`).
-/

namespace CircuitGrading

open Text

namespace Text

/-- What an argument has to satisfy is looked up at the beginnings of the text. -/
instance (text : Text) : Decidable (Closed text) :=
  decidable_of_iff
    (text ≠ [] ∧ (∀ front ∈ text.inits, 0 ≤ level front) ∧ level text = 0 ∧
      ∀ front ∈ text.inits, front ++ [','] <+: text → 0 < level front) (by
    simp only [List.mem_inits]
    constructor
    · rintro ⟨nonempty, opened, balanced, enclosed⟩
      refine ⟨nonempty, opened, balanced, fun front rest split => ?_⟩
      have beginning : front ++ [','] <+: text := ⟨rest, by simp [split]⟩
      exact enclosed front ((List.prefix_append front _).trans beginning) beginning
    · rintro ⟨nonempty, opened, balanced, enclosed⟩
      refine ⟨nonempty, opened, balanced, fun front _ beginning => ?_⟩
      obtain ⟨rest, split⟩ := beginning
      exact enclosed front rest (by simp [← split]))

/-- Some beginning of a text has the highest level. -/
theorem exists_deepest (text : Text) :
    ∃ front, front <+: text ∧ ∀ other, other <+: text → level other ≤ level front := by
  induction text with
  | nil =>
    refine ⟨[], List.nil_prefix, fun other beginning => ?_⟩
    exact Int.le_of_eq (congrArg level (List.prefix_nil.mp beginning))
  | cons c rest ih =>
    obtain ⟨front, beginning, highest⟩ := ih
    -- The text is deepest where its rest is, unless that is no higher than its start.
    by_cases rises : 0 ≤ level (c :: front)
    · refine ⟨c :: front, List.cons_prefix_cons.mpr ⟨rfl, beginning⟩, fun other shorter => ?_⟩
      rcases List.prefix_cons_iff.mp shorter with rfl | ⟨other, rfl, later⟩
      · exact rises
      · have bound := highest other later
        rw [level_cons c other, level_cons c front]
        omega
    · refine ⟨[], List.nil_prefix, fun other shorter => ?_⟩
      rcases List.prefix_cons_iff.mp shorter with rfl | ⟨other, rfl, later⟩
      · exact Int.le_refl 0
      · have bound := highest other later
        rw [level_cons c front] at rises
        rw [level_cons c other, level_nil]
        omega

/-- A closed text is nested to some depth. -/
theorem Closed.exists_nested {text : Text} (closed : Closed text) :
    ∃ depth, Nested 0 depth text := by
  obtain ⟨front, beginning, highest⟩ := exists_deepest text
  have reached : (((level front).toNat : Nat) : Int) = level front :=
    Int.toNat_of_nonneg (closed.opened front beginning)
  refine ⟨(level front).toNat, fun other shorter => ?_, closed.balanced, closed.enclosed,
    front, beginning, reached.symm⟩
  have bound := highest other shorter
  exact ⟨closed.opened other shorter, by omega⟩

/-- The levels of a nested text are bounded as its depth is. -/
theorem Nested.levelAtMost_iff {bound : Int} {depth limit : Nat} {text : Text}
    (nested : Nested bound depth text) : LevelAtMost limit text ↔ depth ≤ limit := by
  constructor
  · intro low
    obtain ⟨front, beginning, reached⟩ := nested.deepest
    have high := low front beginning
    omega
  · intro shallow front beginning
    have bounds := nested.within front beginning
    omega

/-- A closed text that keeps below the bracket limit can be cut out of a call. -/
theorem Closed.separable {text : Text} (closed : Closed text) (low : LevelAtMost 511 text) :
    Call.Separable text := by
  obtain ⟨depth, nested⟩ := closed.exists_nested
  exact nested.separable (Nat.lt_succ_of_le (nested.levelAtMost_iff.mp low))

end Text

namespace Circuit

/-- The part stands in the place of an operand in the whole, which is an expression otherwise. -/
inductive Embedded (part : Text) : Text → Prop where
  /-- The part is the whole. -/
  | whole : Embedded part part
  /-- The part is in the operand of a negation. -/
  | not {operand ending : Text} :
      Embedded part operand → EndsCall ending →
      Embedded part (Gate.not.name.toList ++ '(' :: (operand ++ ending))
  /-- The part is in the first operand of a binary gate. -/
  | first (gate : BinaryGate) {first second : Text} {right : Circuit} {ending : Text} :
      Embedded part first → Spells second right → EndsCall ending →
      Embedded part (gate.name.toList ++ '(' :: (first ++ ',' :: (second ++ ending)))
  /-- The part is in the second operand of a binary gate. -/
  | second (gate : BinaryGate) {first second : Text} {left : Circuit} {ending : Text} :
      Spells first left → Embedded part second → EndsCall ending →
      Embedded part (gate.name.toList ++ '(' :: (first ++ ',' :: (second ++ ending)))

namespace Embedded

variable {part whole : Text}

/-- Where the part has characters, the whole has. -/
theorem ne_nil (embedded : Embedded part whole) (characters : part ≠ []) : whole ≠ [] := by
  cases embedded with
  | whole => exact characters
  | not => simp
  | first => simp
  | second => simp

/-- Where the part is nested, the whole is. -/
theorem exists_nested (embedded : Embedded part whole) {depth : Nat}
    (nested : Nested 0 depth part) :
    ∃ depth', Nested 0 depth' whole := by
  induction embedded with
  | whole => exact ⟨depth, nested⟩
  | not _ ends ih =>
    obtain ⟨depth', operand⟩ := ih
    exact ⟨_, operand.not_call ends⟩
  | first gate _ spells ends ih =>
    obtain ⟨depth', operand⟩ := ih
    exact ⟨_, operand.binary_call gate spells.nested ends⟩
  | second gate spells _ ends ih =>
    obtain ⟨depth', operand⟩ := ih
    exact ⟨_, spells.nested.binary_call gate operand ends⟩

/-- The error of a closed part is the error of the whole. -/
theorem parse_eq (embedded : Embedded part whole) (closed : Closed part)
    (low : LevelAtMost bracketLimit whole) {error : SyntaxError}
    (failed : parse part = .error error) : parse whole = .error error := by
  obtain ⟨depth, nested⟩ := closed.exists_nested
  induction embedded with
  | whole => exact failed
  | not inner ends ih =>
    obtain ⟨depth', operand⟩ := inner.exists_nested nested
    have shallow := (operand.not_call ends).levelAtMost_iff.mp low
    have inside := ih (operand.levelAtMost_iff.mpr (by omega))
    rw [parse_not_call (operand.separable (by omega)) (inner.ne_nil closed.nonempty) ends, inside]
    rfl
  | first gate inner spells ends ih =>
    obtain ⟨depth', operand⟩ := inner.exists_nested nested
    have shallow := (operand.binary_call gate spells.nested ends).levelAtMost_iff.mp low
    have inside := ih (operand.levelAtMost_iff.mpr (by omega))
    rw [parse_binary_call gate (operand.separable (by omega)) (spells.nested.separable (by omega))
      spells.ne_nil ends, inside]
    rfl
  | second gate spells inner ends ih =>
    obtain ⟨depth', operand⟩ := inner.exists_nested nested
    have shallow := (spells.nested.binary_call gate operand ends).levelAtMost_iff.mp low
    have inside := ih (operand.levelAtMost_iff.mpr (by omega))
    -- The operand to the left is read, so the error is that of the second one.
    have left := parse_of_spells spells (by omega)
    rw [parse_binary_call gate (spells.nested.separable (by omega)) (operand.separable (by omega))
      (inner.ne_nil closed.nonempty) ends, left, inside]
    rfl

end Embedded

/-- Expressions are read part by part. A call of a binary gate with two closed texts below the
bracket limit, expressions or not, is the gate over what they are read as, and its error is that of
the first text or, if there is none, that of the second; a call of the negation is the negation of
what its operand is read as. So a closed text in the place of an operand, at any depth of a text
that is an expression otherwise and keeps to the limit, is refused with the error that it has
alone. -/
theorem parse_compositional :
    (∀ (gate : BinaryGate) (first second ending : Text), first.Closed → first.LevelAtMost 511 →
      second.Closed → second.LevelAtMost 511 → EndsCall ending →
      parse (gate.name.toList ++ '(' :: (first ++ ',' :: (second ++ ending))) =
        (parse first).bind fun left => (parse second).map (binary gate left)) ∧
    (∀ operand ending : Text, operand.Closed → operand.LevelAtMost 511 → EndsCall ending →
      parse (Gate.not.name.toList ++ '(' :: (operand ++ ending)) = (parse operand).map not) ∧
    (∀ (part whole : Text) (error : SyntaxError), part.Closed → Embedded part whole →
      whole.LevelAtMost 512 → parse part = .error error → parse whole = .error error) := by
  refine ⟨fun gate first second ending firstClosed firstLow secondClosed secondLow ends => ?_,
    fun operand ending closed low ends => ?_, fun part whole error closed embedded low failed => ?_⟩
  · exact parse_binary_call gate (firstClosed.separable firstLow) (secondClosed.separable secondLow)
      secondClosed.nonempty ends
  · exact parse_not_call (closed.separable low) closed.nonempty ends
  · exact embedded.parse_eq closed low failed

/-- A call with two operands that are expressions; and an unknown gate over texts that are no
expressions either: in front of another wrong operand, under a negation, and two levels down. -/
theorem parse_compositional_read_and_refused :
    let part : Text := "IF(É,(,))".toList
    let error : SyntaxError := .unknownGate "IF".toList
    let z : Circuit := input ⟨25⟩
    parse "NOR(NOT(Z),AND(A,Z),)".toList = .ok (binary .nor (not z) (binary .and (input ⟨0⟩) z)) ∧
      part.Closed ∧ parse part = .error error ∧
      parse "OR(IF(É,(,)),B+)".toList = .error error ∧
      parse "NOT(IF(É,(,)),)".toList = .error error ∧
      parse "OR(A,NOT(IF(É,(,)),))".toList = .error error := by
  intro part error z
  obtain ⟨ofBinary, ofNot, ofEmbedded⟩ := parse_compositional
  have closed : part.Closed := by decide
  have low : part.LevelAtMost 511 := by decide
  have failed : parse part = .error error := by decide +kernel
  have last : EndsCall [')'] := Or.inl rfl
  have comma : EndsCall [',', ')'] := Or.inr rfl
  have left : parse "NOT(Z)".toList = .ok (not z) :=
    parse_of_spells (.not (.input ⟨25⟩) last) (by decide)
  have right : parse "AND(A,Z)".toList = .ok (binary .and (input ⟨0⟩) z) :=
    parse_of_spells (.binary .and (.input ⟨0⟩) (.input ⟨25⟩) last) (by decide)
  have inNor := ofBinary .nor "NOT(Z)".toList "AND(A,Z)".toList [',', ')'] (by decide) (by decide)
    (by decide) (by decide) comma
  rw [left, right] at inNor
  have inOr := ofBinary .or part "B+".toList [')'] closed low (by decide) (by decide) last
  have inNot := ofNot part [',', ')'] closed low comma
  rw [failed] at inOr inNot
  have place : Embedded part "OR(A,NOT(IF(É,(,)),))".toList :=
    .second .or (.input ⟨0⟩) (.not .whole comma) last
  have inPlace := ofEmbedded part _ error closed place (by decide) failed
  exact ⟨inNor, closed, failed, inOr, inNot, inPlace⟩

end Circuit

end CircuitGrading
