import CircuitGrading.Text.Basic

/-!
# Gates

A gate is the negation or one of six binary gates. The output of a binary gate is computed from
conjunction, disjunction and negation alone (`BinaryGate.apply`); `apply_eq_connective` says that
it is the connective of that name.
-/

namespace CircuitGrading

/-- A gate with two operands. -/
inductive BinaryGate where
  /-- Both operands are true. -/
  | and
  /-- Not both operands are true. -/
  | nand
  /-- Some operand is true. -/
  | or
  /-- No operand is true. -/
  | nor
  /-- The operands differ. -/
  | xor
  /-- The operands are equal. -/
  | xnor
  deriving DecidableEq

namespace BinaryGate

/-- All binary gates in their customary order. -/
def all : List BinaryGate := [and, nand, or, nor, xor, xnor]

/-- The name of the gate in an expression. -/
def name : BinaryGate → String
  | and => "AND"
  | nand => "NAND"
  | or => "OR"
  | nor => "NOR"
  | xor => "XOR"
  | xnor => "XNOR"

/-- The output of the gate, from conjunction, disjunction and negation. -/
def apply : BinaryGate → Bool → Bool → Bool
  | and, left, right => left && right
  | nand, left, right => !(left && right)
  | or, left, right => left || right
  | nor, left, right => !(left || right)
  | xor, left, right => (left || right) && !(left && right)
  | xnor, left, right => !((left || right) && !(left && right))

/-- The Boolean connective that the gate is named for. -/
def connective : BinaryGate → Bool → Bool → Bool
  | and, left, right => left && right
  | nand, left, right => !(left && right)
  | or, left, right => left || right
  | nor, left, right => !(left || right)
  | xor, left, right => left != right
  | xnor, left, right => left == right

/-- Whether the gate is one of the two from which all others are built by negation. -/
def isElementary : BinaryGate → Bool
  | and | or => true
  | nand | nor | xor | xnor => false

/-- The outputs for the operands 00, 01, 10 and 11. -/
def table (gate : BinaryGate) : List Bool :=
  [gate.apply false false, gate.apply false true, gate.apply true false, gate.apply true true]

/-- Every binary gate is listed. -/
@[simp] theorem mem_all (gate : BinaryGate) : gate ∈ all := by
  cases gate <;> decide

/-- Binary gates with the same name are the same. -/
theorem name_injective {left right : BinaryGate} (same : left.name = right.name) :
    left = right := by
  revert same
  cases left <;> cases right <;> decide

/-- A gate computes the connective that it is named for. -/
theorem apply_eq_connective (gate : BinaryGate) (left right : Bool) :
    gate.apply left right = gate.connective left right := by
  cases gate <;> cases left <;> cases right <;> rfl

/-- The order of the operands does not matter to the output. -/
theorem apply_comm (gate : BinaryGate) (left right : Bool) :
    gate.apply left right = gate.apply right left := by
  cases gate <;> cases left <;> cases right <;> rfl

end BinaryGate

/-- A gate of a circuit. -/
inductive Gate where
  /-- The negation of the only operand. -/
  | not
  /-- A gate with two operands. -/
  | binary (gate : BinaryGate)
  deriving DecidableEq

namespace Gate

/-- All gates, the negation first. -/
def all : List Gate := not :: BinaryGate.all.map binary

/-- The name of the gate in an expression. -/
def name : Gate → String
  | not => "NOT"
  | binary gate => gate.name

/-- The number of operands. -/
def arity : Gate → Nat
  | not => 1
  | binary _ => 2

/-- The gate of a name; names are written in capital letters only. -/
def ofName? (name : Text) : Option Gate := all.find? fun gate => gate.name.toList == name

/-- A gate is found by its name. -/
@[simp] theorem ofName?_name (gate : Gate) : ofName? gate.name.toList = some gate := by
  cases gate with
  | not => decide
  | binary gate => cases gate <;> decide

/-- The name of the gate found is the name that was asked for. -/
theorem name_of_ofName? {name : Text} {gate : Gate} (found : ofName? name = some gate) :
    gate.name.toList = name := by
  simpa using List.find?_some found

/-- A name belongs to a gate exactly when it is the gate's name. -/
theorem ofName?_eq_some_iff {name : Text} {gate : Gate} :
    ofName? name = some gate ↔ name = gate.name.toList :=
  ⟨fun found => (name_of_ofName? found).symm, fun same => same ▸ ofName?_name gate⟩

end Gate

end CircuitGrading
