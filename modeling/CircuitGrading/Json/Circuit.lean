import CircuitGrading.Circuit.Basic
import CircuitGrading.Json.Value

/-!
# Circuits as JSON values

A variant with content is an object with one field, whose key is the name of the variant; a variant
without content is its name. A binary gate over two circuits is a list of the gate and the list of
the two circuits. Readers accept what writers produce and, in place of the name of a variant without
content, an object that gives the name the value `null`; all else is refused.
-/

namespace CircuitGrading

namespace Letter

/-- A letter is the string of its name. -/
def toJson (letter : Letter) : JsonValue := .string (String.ofList [letter.char])

/-- Read a letter. -/
def ofJson? : JsonValue → Option Letter
  | .string name =>
    match name.toList with
    | [c] => ofChar? c
    | _ => none
  | _ => none

/-- A letter is read back. -/
@[simp] theorem ofJson?_toJson (letter : Letter) : ofJson? letter.toJson = some letter := by
  simp [toJson, ofJson?]

/-- Only the string of its name is read as a letter. -/
theorem ofJson?_eq_some_iff {value : JsonValue} {letter : Letter} :
    ofJson? value = some letter ↔ value = letter.toJson := by
  constructor
  · intro done
    unfold ofJson? at done
    split at done
    · rename_i name
      split at done
      · rename_i c single
        rw [ofChar?_eq_some_iff] at done
        rw [toJson, ← done, ← single, String.ofList_toList]
      · contradiction
    · contradiction
  · rintro rfl
    exact ofJson?_toJson letter

end Letter

namespace BinaryGate

/-- The name of the variant for the gate. -/
def variantName : BinaryGate → String
  | and => "And"
  | nand => "Nand"
  | or => "Or"
  | nor => "Nor"
  | xor => "Xor"
  | xnor => "Xnor"

/-- A binary gate is a variant without content. -/
def toJson (gate : BinaryGate) : JsonValue := .string gate.variantName

/-- Read a binary gate. -/
def ofJson? (value : JsonValue) : Option BinaryGate :=
  match value.variantName? with
  | some name => all.find? fun gate => gate.variantName == name
  | none => none

/-- A binary gate is read back. -/
@[simp] theorem ofJson?_toJson (gate : BinaryGate) : ofJson? gate.toJson = some gate := by
  cases gate <;> rfl

/-- A binary gate is read from the name of its variant, in either way to write it. -/
theorem ofJson?_eq_some_iff {value : JsonValue} {gate : BinaryGate} :
    ofJson? value = some gate ↔
      value = .string gate.variantName ∨ value = .object [(gate.variantName, .null)] := by
  have found : (all.find? fun other => other.variantName == gate.variantName) = some gate := by
    cases gate <;> rfl
  exact JsonValue.find?_variantName?_eq_some_iff found

end BinaryGate

namespace Gate

/-- The negation has no content, and a binary gate is the content of its variant. -/
def toJson : Gate → JsonValue
  | not => .string "Not"
  | binary gate => .object [("Binary", gate.toJson)]

/-- Read a gate. -/
def ofJson? : JsonValue → Option Gate
  | .object [("Binary", gate)] => (BinaryGate.ofJson? gate).map binary
  | value => if value.variantName? = some "Not" then some not else none

/-- A gate is read back. -/
@[simp] theorem ofJson?_toJson (gate : Gate) : ofJson? gate.toJson = some gate := by
  cases gate with
  | not => rfl
  | binary gate => simp [toJson, ofJson?]

end Gate

namespace Circuit

/-- A circuit as a JSON value. -/
def toJson : Circuit → JsonValue
  | input letter => .object [("Input", letter.toJson)]
  | not child => .object [("Not", child.toJson)]
  | binary gate left right =>
    .object [("Operation", .list [gate.toJson, .list [left.toJson, right.toJson]])]

/-- Read a circuit. -/
def ofJson? : JsonValue → Option Circuit
  | .object [("Input", letter)] => (Letter.ofJson? letter).map input
  | .object [("Not", child)] => (ofJson? child).map not
  | .object [("Operation", .list [gate, .list [left, right]])] =>
    match BinaryGate.ofJson? gate, ofJson? left, ofJson? right with
    | some gate, some left, some right => some (binary gate left right)
    | _, _, _ => none
  | _ => none

/-- A circuit is read back. -/
@[simp] theorem ofJson?_toJson (circuit : Circuit) : ofJson? circuit.toJson = some circuit := by
  induction circuit with
  | input letter => simp [toJson, ofJson?]
  | not child ih => simp [toJson, ofJson?, ih]
  | binary gate left right leftIH rightIH => simp [toJson, ofJson?, leftIH, rightIH]

end Circuit

end CircuitGrading
