import CircuitGrading.Json.Respelled

/-!
# The JSON form is faithful

A circuit is read from the value that it is written as, and from nothing else but the respellings
of that value, in which names of binary gates are objects (`Circuit.toJson_faithful`). Both
directions follow the circuit: what is read as a circuit has the shape of the circuit's root
(`Circuit.ofJson?_eq_some_iff_jsonShape`), a respelling keeps this shape, and below it the values
that are read as the operands are respelled from those that the operands are written as.
-/

namespace CircuitGrading

open JsonValue

/-- No letter has the name of a binary gate. -/
theorem Letter.name_ne_variantName (letter : Letter) (gate : BinaryGate) :
    String.ofList [letter.char] ≠ gate.variantName := by
  intro same
  have length := congrArg (fun name => name.toList.length) same
  cases gate <;> simp [BinaryGate.variantName] at length

/-- A respelling is read as the same binary gate. -/
theorem BinaryGate.ofJson?_of_respell {gate : BinaryGate} {value other : JsonValue}
    (step : Respell value other) (done : ofJson? value = some gate) :
    ofJson? other = some gate := by
  rw [ofJson?_eq_some_iff] at done ⊢
  rcases done with rfl | rfl
  · obtain ⟨-, -, written⟩ := step.exists_name
    exact Or.inr written
  · obtain ⟨inner, -, inside⟩ := step.exists_field
    exact absurd inside Respell.not_null

namespace Circuit

variable {value other : JsonValue} {circuit : Circuit}

/-- The shape of a value that is read as a circuit, by the root of the circuit. -/
abbrev JsonShape (value : JsonValue) : Circuit → Prop
  | input letter => value = .object [("Input", letter.toJson)]
  | not child => ∃ inner, value = .object [("Not", inner)] ∧ ofJson? inner = some child
  | binary gate left right =>
    ∃ name first second, value = .object [("Operation", .list [name, .list [first, second]])] ∧
      BinaryGate.ofJson? name = some gate ∧ ofJson? first = some left ∧
        ofJson? second = some right

/-- A value is read as a circuit exactly if it has the shape of the circuit's root and what is
below the root is read as the operands. -/
theorem ofJson?_eq_some_iff_jsonShape : ofJson? value = some circuit ↔ JsonShape value circuit := by
  constructor
  · intro done
    unfold ofJson? at done
    split at done
    · obtain ⟨letter, named, rfl⟩ := Option.map_eq_some_iff.mp done
      rw [Letter.ofJson?_eq_some_iff.mp named]
    · rename_i inner
      obtain ⟨child, read, rfl⟩ := Option.map_eq_some_iff.mp done
      exact ⟨inner, rfl, read⟩
    · rename_i name first second
      split at done
      · rename_i gate left right named readLeft readRight
        obtain rfl := Option.some.inj done
        exact ⟨name, first, second, rfl, named, readLeft, readRight⟩
      · contradiction
    · contradiction
  · intro shape
    cases circuit with
    | input letter =>
      rw [shape]
      exact ofJson?_toJson (input letter)
    | not child =>
      obtain ⟨inner, rfl, read⟩ := shape
      simp only [ofJson?, read, Option.map_some]
    | binary gate left right =>
      obtain ⟨name, first, second, rfl, named, readLeft, readRight⟩ := shape
      simp only [ofJson?, named, readLeft, readRight]

/-- A respelling is read as the same circuit. -/
theorem ofJson?_of_respell (step : Respell value other) (done : ofJson? value = some circuit) :
    ofJson? other = some circuit := by
  induction circuit generalizing value other with
  | input letter =>
    obtain rfl := ofJson?_eq_some_iff_jsonShape.mp done
    obtain ⟨inner, -, inside⟩ := step.exists_field
    obtain ⟨gate, same, -⟩ := Respell.exists_name inside
    exact absurd same (letter.name_ne_variantName gate)
  | not child ih =>
    obtain ⟨inner, rfl, read⟩ := ofJson?_eq_some_iff_jsonShape.mp done
    obtain ⟨inner', rfl, inside⟩ := step.exists_field
    exact ofJson?_eq_some_iff_jsonShape.mpr ⟨inner', rfl, ih inside read⟩
  | binary gate left right leftIH rightIH =>
    obtain ⟨name, first, second, rfl, named, readLeft, readRight⟩ :=
      ofJson?_eq_some_iff_jsonShape.mp done
    obtain ⟨content, rfl, inside⟩ := step.exists_field
    rw [ofJson?_eq_some_iff_jsonShape]
    -- The step is in the name of the gate, in the first operand or in the second one.
    rcases inside.exists_pair with ⟨name', rfl, inName⟩ | ⟨operands, rfl, inOperands⟩
    · exact ⟨name', first, second, rfl, BinaryGate.ofJson?_of_respell inName named, readLeft,
        readRight⟩
    rcases inOperands.exists_pair with ⟨first', rfl, inFirst⟩ | ⟨second', rfl, inSecond⟩
    · exact ⟨name, first', second, rfl, named, leftIH inFirst readLeft, readRight⟩
    · exact ⟨name, first, second', rfl, named, readLeft, rightIH inSecond readRight⟩

/-- What is read as a circuit is a respelling of the value that the circuit is written as. -/
theorem respelled_of_ofJson? (done : ofJson? value = some circuit) :
    Respelled circuit.toJson value := by
  induction circuit generalizing value with
  | input letter =>
    obtain rfl := ofJson?_eq_some_iff_jsonShape.mp done
    exact .refl
  | not child ih =>
    obtain ⟨inner, rfl, read⟩ := ofJson?_eq_some_iff_jsonShape.mp done
    exact Respelled.field "Not" (ih read)
  | binary gate left right leftIH rightIH =>
    obtain ⟨name, first, second, rfl, named, readLeft, readRight⟩ :=
      ofJson?_eq_some_iff_jsonShape.mp done
    have gateName : Respelled gate.toJson name := by
      rcases BinaryGate.ofJson?_eq_some_iff.mp named with rfl | rfl
      · exact .refl
      · exact .single (.name gate)
    exact Respelled.field "Operation"
      (Respelled.pair gateName (Respelled.pair (leftIH readLeft) (rightIH readRight)))

/-- A value is read as a circuit exactly if it is a respelling of what the circuit is written as. -/
theorem ofJson?_eq_some_iff : ofJson? value = some circuit ↔ Respelled circuit.toJson value := by
  constructor
  · exact respelled_of_ofJson?
  · intro steps
    induction steps with
    | refl => exact ofJson?_toJson circuit
    | tail _ step ih => exact ofJson?_of_respell step ih

/-- No name is an object in the value that a circuit is written as. -/
theorem canonical_toJson (circuit : Circuit) : Canonical circuit.toJson := by
  induction circuit with
  | input letter => exact .field "Input" (by simp [Letter.toJson]) (.string _)
  | not child ih => exact .field "Not" (by cases child <;> simp [toJson]) ih
  | binary gate left right leftIH rightIH =>
    have operands : Canonical (.list [left.toJson, right.toJson]) := .pair leftIH rightIH
    exact .field "Operation" (by simp) (.pair (.string gate.variantName) operands)

/-- Only the string of a capital letter is read in the place of an input. -/
theorem ofJson?_input_eq_none {content : JsonValue}
    (other : ∀ letter : Letter, content ≠ letter.toJson) :
    ofJson? (.object [("Input", content)]) = none := by
  have refused : Letter.ofJson? content = none := by
    rw [Option.eq_none_iff_forall_ne_some]
    intro letter named
    exact other letter (Letter.ofJson?_eq_some_iff.mp named)
  simp only [ofJson?, refused, Option.map_none]

/-- The JSON form of a circuit is faithful and nothing else is readable. A circuit is read back
from the value that it is written as, and the values that are read as the circuit are exactly those
in which any names of binary gates may be objects instead of strings. Writing what was read from
a value gives a value in which no name is an object and which is read as the same circuit. All
inputs of a circuit that was read are capital letters; a value that is not the string of a capital
letter is refused in the place of an input. -/
theorem toJson_faithful (circuit : Circuit) :
    ofJson? circuit.toJson = some circuit ∧
    (∀ value,
      (ofJson? value = some circuit ↔ Respelled circuit.toJson value) ∧
      (ofJson? value = some circuit →
        (Canonical circuit.toJson ∧ ofJson? circuit.toJson = ofJson? value) ∧
        ∀ letter ∈ circuit.leaves,
          letter.index.val < 26 ∧ 'A' ≤ letter.char ∧ letter.char ≤ 'Z')) ∧
    ∀ content : JsonValue, (∀ letter : Letter, content ≠ letter.toJson) →
      ofJson? (.object [("Input", content)]) = none := by
  have back := ofJson?_toJson circuit
  refine ⟨back, fun value => ⟨ofJson?_eq_some_iff, fun done => ?_⟩, fun content other => ?_⟩
  · refine ⟨⟨circuit.canonical_toJson, ?_⟩, fun letter _ => ?_⟩
    · rw [back, done]
    · exact ⟨letter.index.isLt, letter.le_char, letter.char_le⟩
  · exact ofJson?_input_eq_none other

/-- A name in either spelling, in a circuit that reads the last letter; and a small letter in the
place of an input. -/
theorem toJson_faithful_mixed_names :
    let inner := JsonValue.object
      [("Operation", .list [.object [("Nor", .null)],
        .list [.object [("Input", .string "Z")], .object [("Input", .string "A")]]])]
    let value := JsonValue.object
      [("Operation", .list [.string "And", .list [.object [("Not", inner)], inner]])]
    let child := binary .nor (input ⟨25⟩) (input ⟨0⟩)
    let circuit := binary .and (not child) child
    ofJson? value = some circuit ∧ Respelled circuit.toJson value ∧
      ofJson? circuit.toJson = ofJson? value ∧
      ofJson? (.object [("Input", .string "z")]) = none := by
  intro inner value child circuit
  have done : ofJson? value = some circuit := by decide
  have small : ∀ letter : Letter, JsonValue.string "z" ≠ letter.toJson := by
    intro letter same
    have named : "z" = String.ofList [letter.char] := JsonValue.string.inj same
    clear same
    revert named
    obtain ⟨index⟩ := letter
    revert index
    decide
  obtain ⟨-, values, refused⟩ := toJson_faithful circuit
  obtain ⟨respelled, consequences⟩ := values value
  exact ⟨done, respelled.mp done, (consequences done).1.2, refused _ small⟩

end Circuit

end CircuitGrading
