import CircuitGrading.Circuit.Fingerprint
import Mathlib.Data.List.Basic
import Mathlib.Logic.ExistsUnique

/-!
# Cancellation in checksums

A step of the checksum loses nothing: exclusive or with a byte can be undone, and so can the
multiplication, because the factor is odd and has an inverse modulo `2 ^ 32`. Checksums that differ
therefore stay different whatever bytes follow (`foldl_fnv1aStep_inj`), a common ending of two texts
can be cancelled (`fnv1a_append_inj`), and one changed byte always shows
(`fnv1a_ne_of_oneByteApart`). The description of a binary gate ends in its operands, which can be
cancelled whatever their fingerprints are. What is left are the six names, and their checksums are
different (`fnv1a_name_injective`). So no collision hides a change of the gate at the root alone
(`checksum_cancellation`).
-/

namespace CircuitGrading

namespace Text

/-- The inverse of the factor modulo `2 ^ 32`. -/
def fnv1aInverse : UInt32 := 0x359C449B

/-- The factor has an inverse. -/
theorem fnv1aPrime_mul_inverse : fnv1aPrime * fnv1aInverse = 1 := by decide

/-- Multiplication by the factor loses nothing. -/
theorem mul_fnv1aPrime_inj {left right : UInt32} :
    left * fnv1aPrime = right * fnv1aPrime ↔ left = right := by
  constructor
  · intro same
    calc
      left = left * fnv1aPrime * fnv1aInverse := by
        rw [UInt32.mul_assoc, fnv1aPrime_mul_inverse, UInt32.mul_one]
      _ = right * fnv1aPrime * fnv1aInverse := by rw [same]
      _ = right := by rw [UInt32.mul_assoc, fnv1aPrime_mul_inverse, UInt32.mul_one]
  · intro same
    rw [same]

/-- The same byte leads from different checksums to different ones. -/
theorem fnv1aStep_checksum_inj {checksum checksum' : UInt32} (byte : UInt8) :
    fnv1aStep checksum byte = fnv1aStep checksum' byte ↔ checksum = checksum' := by
  unfold fnv1aStep
  rw [mul_fnv1aPrime_inj, UInt32.xor_left_inj]

/-- Different bytes lead from the same checksum to different ones. -/
theorem fnv1aStep_byte_inj (checksum : UInt32) {byte byte' : UInt8} :
    fnv1aStep checksum byte = fnv1aStep checksum byte' ↔ byte = byte' := by
  unfold fnv1aStep
  rw [mul_fnv1aPrime_inj, UInt32.xor_right_inj, UInt8.toUInt32_inj]

/-- The same bytes lead from different checksums to different ones. -/
theorem foldl_fnv1aStep_inj {checksum checksum' : UInt32} (bytes : List UInt8) :
    bytes.foldl fnv1aStep checksum = bytes.foldl fnv1aStep checksum' ↔ checksum = checksum' := by
  induction bytes generalizing checksum checksum' with
  | nil => rfl
  | cons byte rest ih => rw [List.foldl_cons, List.foldl_cons, ih, fnv1aStep_checksum_inj]

/-- A common ending can be cancelled. -/
theorem fnv1a_append_inj {left right : Text} (ending : Text) :
    fnv1a (left ++ ending) = fnv1a (right ++ ending) ↔ fnv1a left = fnv1a right := by
  rw [fnv1a_append, fnv1a_append, foldl_fnv1aStep_inj]

/-- The lists have the same length and differ at exactly one place. -/
def OneByteApart (bytes bytes' : List UInt8) : Prop :=
  bytes.length = bytes'.length ∧ ∃! place : Nat, bytes[place]? ≠ bytes'[place]?

/-- Lists that differ at one place are the same before it and after it. -/
theorem OneByteApart.exists_split {bytes bytes' : List UInt8} (apart : OneByteApart bytes bytes') :
    ∃ front byte byte' rest,
      bytes = front ++ byte :: rest ∧ bytes' = front ++ byte' :: rest ∧ byte ≠ byte' := by
  obtain ⟨length, place, differ, only⟩ := apart
  have same : ∀ other, other ≠ place → bytes[other]? = bytes'[other]? := by
    intro other elsewhere
    by_contra differ'
    exact elsewhere (only other differ')
  have inside : place < bytes.length := by
    by_contra outside
    have beyond : bytes[place]? = none := List.getElem?_eq_none (by omega)
    have beyond' : bytes'[place]? = none := List.getElem?_eq_none (by omega)
    exact differ (beyond.trans beyond'.symm)
  have inside' : place < bytes'.length := by omega
  have front : bytes.take place = bytes'.take place := by
    apply List.ext_getElem?
    intro other
    rw [List.getElem?_take, List.getElem?_take]
    split
    · exact same other (by omega)
    · rfl
  have rest : bytes.drop (place + 1) = bytes'.drop (place + 1) := by
    apply List.ext_getElem?
    intro other
    rw [List.getElem?_drop, List.getElem?_drop]
    exact same (place + 1 + other) (by omega)
  refine ⟨bytes.take place, bytes[place], bytes'[place], bytes.drop (place + 1), ?_, ?_, ?_⟩
  · rw [← List.drop_eq_getElem_cons inside, List.take_append_drop]
  · rw [front, rest, ← List.drop_eq_getElem_cons inside', List.take_append_drop]
  · intro equal
    rw [List.getElem?_eq_getElem inside, List.getElem?_eq_getElem inside', equal] at differ
    exact differ rfl

/-- A single changed byte changes the checksum. -/
theorem fnv1a_ne_of_oneByteApart {left right : Text}
    (apart : OneByteApart (utf8 left) (utf8 right)) :
    fnv1a left ≠ fnv1a right := by
  obtain ⟨front, byte, byte', rest, bytes, bytes', differ⟩ := apart.exists_split
  intro same
  rw [fnv1a_eq, fnv1a_eq, bytes, bytes', List.foldl_append, List.foldl_append, List.foldl_cons,
    List.foldl_cons, foldl_fnv1aStep_inj, fnv1aStep_byte_inj] at same
  exact differ same

end Text

/-- The names of the binary gates have different checksums. -/
theorem BinaryGate.fnv1a_name_injective {gate gate' : BinaryGate}
    (same : Text.fnv1a gate.name.toList = Text.fnv1a gate'.name.toList) : gate = gate' := by
  revert same
  cases gate <;> cases gate' <;> decide

namespace Circuit

/-- The descriptions of different gates over the same two fingerprints have different checksums. -/
theorem fnv1a_binaryDescription_ne {gate gate' : BinaryGate} (different : gate ≠ gate')
    (left right : UInt32) :
    Text.fnv1a (binaryDescription gate left right) ≠
      Text.fnv1a (binaryDescription gate' left right) := by
  intro same
  have names : Text.fnv1a gate.name.toList = Text.fnv1a gate'.name.toList :=
    (Text.fnv1a_append_inj _).mp same
  exact different (BinaryGate.fnv1a_name_injective names)

end Circuit

/-- Checksums can be cancelled. Two texts with a common ending have the same checksum exactly if
they have it without the ending, and texts whose encodings have the same length and differ in
exactly one byte have different checksums. So circuits with different binary gates over the same
operands, in the same order or exchanged, have different fingerprints. -/
theorem checksum_cancellation :
    (∀ left right ending : Text,
      Text.fnv1a (left ++ ending) = Text.fnv1a (right ++ ending) ↔
        Text.fnv1a left = Text.fnv1a right) ∧
    (∀ left right : Text,
      (Text.utf8 left).length = (Text.utf8 right).length →
      (∃! place : Nat, (Text.utf8 left)[place]? ≠ (Text.utf8 right)[place]?) →
        Text.fnv1a left ≠ Text.fnv1a right) ∧
    ∀ gate gate' : BinaryGate, gate ≠ gate' → ∀ left right : Circuit,
      (Circuit.binary gate left right).fingerprint ≠
          (Circuit.binary gate' left right).fingerprint ∧
        (Circuit.binary gate left right).fingerprint ≠
          (Circuit.binary gate' right left).fingerprint := by
  refine ⟨fun _ _ ending => Text.fnv1a_append_inj ending,
    fun _ _ length single => Text.fnv1a_ne_of_oneByteApart ⟨length, single⟩, ?_⟩
  intro gate gate' different left right
  have apart := Circuit.fnv1a_binaryDescription_ne different left.fingerprint right.fingerprint
  have crossed := apart
  rw [Circuit.binaryDescription_comm gate'] at crossed
  exact ⟨apart, crossed⟩

/-- Two characters that differ in the second of their two bytes, without and with an ending, and a
conjunction beside a negated conjunction of the same operands in the other order. -/
theorem checksum_cancellation_accented :
    let grave := "è".toList
    let acute := "é".toList
    let a := Circuit.input ⟨0⟩
    Text.fnv1a grave ≠ Text.fnv1a acute ∧
      Text.fnv1a (grave ++ "(A)".toList) ≠ Text.fnv1a (acute ++ "(A)".toList) ∧
      (Circuit.binary .and a (.not a)).fingerprint ≠
        (Circuit.binary .nand (.not a) a).fingerprint := by
  intro grave acute a
  have single : ∃! place : Nat, (Text.utf8 grave)[place]? ≠ (Text.utf8 acute)[place]? := by
    refine ⟨1, by decide, ?_⟩
    intro place differ
    match place with
    | 0 => exact absurd rfl differ
    | 1 => rfl
    | _ + 2 => exact absurd rfl differ
  obtain ⟨ending, bytes, gates⟩ := checksum_cancellation
  have apart : Text.fnv1a grave ≠ Text.fnv1a acute := bytes grave acute (by decide) single
  exact ⟨apart, mt (ending grave acute _).mp apart, (gates .and .nand (by decide) a (.not a)).2⟩

end CircuitGrading
