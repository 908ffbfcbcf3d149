import CircuitGrading.Circuit.Basic
import CircuitGrading.Text.Fnv1a

/-!
# Fingerprints

The fingerprint of a circuit is a 32-bit number computed from the leaves upwards: an input has
the code point of its letter, and a gate has the FNV-1a checksum of a short description, the name
of the gate with the fingerprints of its operands in brackets. The smaller fingerprint comes
first, so circuits that differ in the order of operands only have equal fingerprints. Equal
fingerprints do not prove equal circuits.
-/

namespace CircuitGrading.Circuit

/-- The description of a negation over the fingerprint of its operand. -/
def notDescription (child : UInt32) : Text :=
  Gate.not.name.toList ++ '(' :: (Text.decimal child.toNat ++ [')'])

/-- The description of a binary gate over the fingerprints of its operands, the smaller first. -/
def binaryDescription (gate : BinaryGate) (left right : UInt32) : Text :=
  let low := if left < right then left else right
  let high := if left < right then right else left
  gate.name.toList ++
    '(' :: (Text.decimal low.toNat ++ ',' :: (Text.decimal high.toNat ++ [')']))

/-- The fingerprint of a circuit. -/
def fingerprint : Circuit → UInt32
  | input letter => letter.codePoint
  | not child => Text.fnv1a (notDescription child.fingerprint)
  | binary gate left right =>
    Text.fnv1a (binaryDescription gate left.fingerprint right.fingerprint)

/-- The description of a gate does not depend on the order of its operands. -/
theorem binaryDescription_comm (gate : BinaryGate) (left right : UInt32) :
    binaryDescription gate left right = binaryDescription gate right left := by
  have sorted : ∀ first second : UInt32,
      (if first < second then first else second) = if second < first then second else first := by
    intro first second
    split <;> split <;> grind
  have reversed : ∀ first second : UInt32,
      (if first < second then second else first) = if second < first then first else second := by
    intro first second
    split <;> split <;> grind
  simp only [binaryDescription, sorted left right, reversed left right]

end CircuitGrading.Circuit
