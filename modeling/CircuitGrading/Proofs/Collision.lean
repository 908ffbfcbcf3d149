import CircuitGrading.Proofs.Grammar
import CircuitGrading.Proofs.OperandOrder

/-!
# Collisions of fingerprints

The descriptions of gates are unambiguous: a description tells the gate and the fingerprints of its
operands up to their order (`sameNode_of_description?`). So whenever two circuits that are not
commuted have the same fingerprint, the checksum is to blame: somewhere inside them it maps two
different descriptions to one number, or a description to the code point of a letter
(`exists_clash_of_fingerprint_eq`). The argument compares the two trees from their roots downwards
and follows equal descriptions into the operands.
-/

namespace CircuitGrading

namespace Text

/-- A part without the separator ends at the first separator. -/
theorem append_cons_inj {separator : Char} {part part' rest rest' : Text}
    (whole : separator ∉ part) (whole' : separator ∉ part')
    (same : part ++ separator :: rest = part' ++ separator :: rest') :
    part = part' ∧ rest = rest' := by
  rcases List.append_eq_append_iff.mp same with ⟨more, longer, tail⟩ | ⟨more, longer, tail⟩
  · cases more with
    | nil => exact ⟨by rw [longer, List.append_nil], (List.cons.inj tail).2⟩
    | cons c more =>
      obtain ⟨rfl, -⟩ := List.cons.inj tail
      exact absurd (by simp [longer]) whole'
  · cases more with
    | nil => exact ⟨by rw [longer, List.append_nil], (List.cons.inj tail).2.symm⟩
    | cons c more =>
      obtain ⟨rfl, -⟩ := List.cons.inj tail
      exact absurd (by simp [longer]) whole

/-- There is no comma in a decimal number. -/
theorem comma_not_mem_decimal (number : Nat) : ',' ∉ decimal number :=
  fun member => absurd (isDigit_of_mem_decimal member) (by decide)

/-- Two words with the same digits are the same word. -/
theorem decimal_toNat_injective {left right : UInt32}
    (same : decimal left.toNat = decimal right.toNat) : left = right :=
  UInt32.toNat_inj.mp (decimal_injective same)

end Text

/-- Letters with the same code point are the same. -/
theorem Letter.codePoint_injective {left right : Letter}
    (same : left.codePoint = right.codePoint) : left = right := by
  rw [codePoint_eq, codePoint_eq] at same
  exact char_injective (Char.val_inj.mp same)

namespace Circuit

/-- The circuit itself and all circuits below its root. -/
def subcircuits : Circuit → List Circuit
  | input letter => [input letter]
  | not child => not child :: child.subcircuits
  | binary gate left right => binary gate left right :: (left.subcircuits ++ right.subcircuits)

/-- The text whose checksum is the fingerprint; an input is not described. -/
def description? : Circuit → Option Text
  | input _ => none
  | not child => some (notDescription child.fingerprint)
  | binary gate left right => some (binaryDescription gate left.fingerprint right.fingerprint)

/-- At the two roots stands the same gate, over operands with the same fingerprints in either
order. -/
def SameNode : Circuit → Circuit → Prop
  | not child, not child' => child.fingerprint = child'.fingerprint
  | binary gate left right, binary gate' left' right' =>
    gate = gate' ∧
      (left.fingerprint = left'.fingerprint ∧ right.fingerprint = right'.fingerprint ∨
        left.fingerprint = right'.fingerprint ∧ right.fingerprint = left'.fingerprint)
  | _, _ => False

/-- The circuits have one fingerprint for no other reason than the checksum: it is the checksum of
two different descriptions, or the checksum of one description and the code point of a letter. -/
def Clash (first second : Circuit) : Prop :=
  first.fingerprint = second.fingerprint ∧
    ((∃ text text', first.description? = some text ∧ second.description? = some text' ∧
        text ≠ text' ∧ Text.fnv1a text = Text.fnv1a text') ∨
      ∃ letter text, Text.fnv1a text = letter.codePoint ∧
        (first = input letter ∧ second.description? = some text ∨
          first.description? = some text ∧ second = input letter))

/-- A circuit is one of its subcircuits. -/
theorem mem_subcircuits_self (circuit : Circuit) : circuit ∈ circuit.subcircuits := by
  cases circuit <;> exact List.mem_cons_self

/-- The fingerprint of a gate is the checksum of its description. -/
theorem fingerprint_of_description? {circuit : Circuit} {text : Text}
    (described : circuit.description? = some text) : circuit.fingerprint = Text.fnv1a text := by
  cases circuit with
  | input letter => contradiction
  | not child =>
    obtain rfl := Option.some.inj described
    rfl
  | binary gate left right =>
    obtain rfl := Option.some.inj described
    rfl

/-- Only inputs are not described. -/
theorem exists_input_of_description? {circuit : Circuit} (plain : circuit.description? = none) :
    ∃ letter, circuit = input letter := by
  cases circuit with
  | input letter => exact ⟨letter, rfl⟩
  | not child => contradiction
  | binary gate left right => contradiction

/-- The description of a negation tells the fingerprint of its operand. -/
theorem notDescription_injective {child child' : UInt32}
    (same : notDescription child = notDescription child') : child = child' := by
  have plain := Gate.plain_name .not
  obtain ⟨-, body⟩ := Call.append_opening_inj plain plain same
  exact Text.decimal_toNat_injective (List.append_cancel_right body)

/-- Pairs that are equal once sorted are equal up to their order. -/
theorem eq_or_exchanged_of_sorted_eq {left right left' right' : UInt32}
    (low : (if left < right then left else right) = if left' < right' then left' else right')
    (high : (if left < right then right else left) = if left' < right' then right' else left') :
    left = left' ∧ right = right' ∨ left = right' ∧ right = left' := by
  by_cases sorted : left < right <;> by_cases sorted' : left' < right'
  · rw [if_pos sorted, if_pos sorted'] at low high
    exact Or.inl ⟨low, high⟩
  · rw [if_pos sorted, if_neg sorted'] at low high
    exact Or.inr ⟨low, high⟩
  · rw [if_neg sorted, if_pos sorted'] at low high
    exact Or.inr ⟨high, low⟩
  · rw [if_neg sorted, if_neg sorted'] at low high
    exact Or.inl ⟨high, low⟩

/-- The description of a binary gate tells the gate and the fingerprints of its operands up to
their order. -/
theorem binaryDescription_injective {gate gate' : BinaryGate} {left right left' right' : UInt32}
    (same : binaryDescription gate left right = binaryDescription gate' left' right') :
    gate = gate' ∧ (left = left' ∧ right = right' ∨ left = right' ∧ right = left') := by
  obtain ⟨named, body⟩ := Call.append_opening_inj (Gate.plain_name (.binary gate))
    (Gate.plain_name (.binary gate')) same
  obtain ⟨low, tail⟩ := Text.append_cons_inj (Text.comma_not_mem_decimal _)
    (Text.comma_not_mem_decimal _) body
  have lowSame := Text.decimal_toNat_injective low
  have highSame := Text.decimal_toNat_injective (List.append_cancel_right tail)
  exact ⟨Gate.binary.inj (Gate.name_toList_injective named),
    eq_or_exchanged_of_sorted_eq lowSame highSame⟩

/-- No negation has the description of a binary gate. -/
theorem notDescription_ne_binaryDescription (child : UInt32) (gate : BinaryGate)
    (left right : UInt32) : notDescription child ≠ binaryDescription gate left right := by
  intro same
  obtain ⟨named, -⟩ := Call.append_opening_inj (Gate.plain_name .not)
    (Gate.plain_name (.binary gate)) same
  have different := Gate.name_toList_injective named
  contradiction

/-- Descriptions are unambiguous. -/
theorem sameNode_of_description? {first second : Circuit} {text : Text}
    (described : first.description? = some text) (described' : second.description? = some text) :
    SameNode first second := by
  have same : first.description? = second.description? := described.trans described'.symm
  cases first with
  | input letter => contradiction
  | not child =>
    cases second with
    | input letter => contradiction
    | not child' => exact notDescription_injective (Option.some.inj same)
    | binary gate left right =>
      exact absurd (Option.some.inj same) (notDescription_ne_binaryDescription _ _ _ _)
  | binary gate left right =>
    cases second with
    | input letter => contradiction
    | not child =>
      exact absurd (Option.some.inj same).symm (notDescription_ne_binaryDescription _ _ _ _)
    | binary gate' left' right' => exact binaryDescription_injective (Option.some.inj same)

/-- Circuits with the same fingerprint are one input, agree at their roots, or clash. -/
theorem sameNode_or_clash {first second : Circuit}
    (same : first.fingerprint = second.fingerprint) :
    (∃ letter, first = input letter ∧ second = input letter) ∨ SameNode first second ∨
      Clash first second := by
  cases described : first.description? with
  | none =>
    obtain ⟨letter, rfl⟩ := exists_input_of_description? described
    cases described' : second.description? with
    | none =>
      obtain ⟨letter', rfl⟩ := exists_input_of_description? described'
      obtain rfl := Letter.codePoint_injective same
      exact Or.inl ⟨letter, rfl, rfl⟩
    | some text' =>
      have checksum := (same.trans (fingerprint_of_description? described')).symm
      exact Or.inr (Or.inr ⟨same, Or.inr ⟨letter, text', checksum, Or.inl ⟨rfl, described'⟩⟩⟩)
  | some text =>
    cases described' : second.description? with
    | none =>
      obtain ⟨letter', rfl⟩ := exists_input_of_description? described'
      have checksum := (fingerprint_of_description? described).symm.trans same
      exact Or.inr (Or.inr ⟨same, Or.inr ⟨letter', text, checksum, Or.inr ⟨described, rfl⟩⟩⟩)
    | some text' =>
      by_cases equal : text = text'
      · subst equal
        exact Or.inr (Or.inl (sameNode_of_description? described described'))
      · have checksum := (fingerprint_of_description? described).symm.trans
          (same.trans (fingerprint_of_description? described'))
        exact Or.inr (Or.inr ⟨same, Or.inl ⟨text, text', described, described', equal, checksum⟩⟩)

/-- Somewhere inside the circuits the checksum is to blame. -/
def ClashInside (first second : Circuit) : Prop :=
  ∃ inner ∈ first.subcircuits, ∃ inner' ∈ second.subcircuits, Clash inner inner'

/-- A clash at the roots is a clash inside. -/
theorem Clash.inside {first second : Circuit} (clash : Clash first second) :
    ClashInside first second :=
  ⟨first, first.mem_subcircuits_self, second, second.mem_subcircuits_self, clash⟩

/-- A clash inside two circuits is a clash inside all that contain them. -/
theorem ClashInside.mono {first second first' second' : Circuit}
    (clash : ClashInside first second) (within : first.subcircuits ⊆ first'.subcircuits)
    (within' : second.subcircuits ⊆ second'.subcircuits) : ClashInside first' second' := by
  obtain ⟨inner, member, inner', member', clash⟩ := clash
  exact ⟨inner, within member, inner', within' member', clash⟩

/-- What is inside the operand of a negation is inside the negation. -/
theorem subcircuits_subset_not (child : Circuit) :
    child.subcircuits ⊆ (not child).subcircuits :=
  List.subset_cons_self _ _

/-- What is inside the left operand of a gate is inside the circuit. -/
theorem subcircuits_subset_left (gate : BinaryGate) (left right : Circuit) :
    left.subcircuits ⊆ (binary gate left right).subcircuits :=
  List.subset_cons_of_subset _ (List.subset_append_left _ _)

/-- What is inside the right operand of a gate is inside the circuit. -/
theorem subcircuits_subset_right (gate : BinaryGate) (left right : Circuit) :
    right.subcircuits ⊆ (binary gate left right).subcircuits :=
  List.subset_cons_of_subset _ (List.subset_append_right _ _)

/-- Two gates are commuted or clash inside if this holds of their operands, matched in either
order. -/
theorem operands_commuted_or_clashInside {gate : BinaryGate}
    {left right left' right' second : Circuit}
    (together : Commuted left left' → Commuted right right' →
      Commuted (binary gate left right) second)
    (inLeft : left'.subcircuits ⊆ second.subcircuits)
    (inRight : right'.subcircuits ⊆ second.subcircuits)
    (leftCase : Commuted left left' ∨ ClashInside left left')
    (rightCase : Commuted right right' ∨ ClashInside right right') :
    Commuted (binary gate left right) second ∨ ClashInside (binary gate left right) second := by
  rcases leftCase with leftCommuted | clash
  · rcases rightCase with rightCommuted | clash
    · exact Or.inl (together leftCommuted rightCommuted)
    · exact Or.inr (clash.mono (subcircuits_subset_right gate left right) inRight)
  · exact Or.inr (clash.mono (subcircuits_subset_left gate left right) inLeft)

/-- Circuits with the same fingerprint are commuted, or there is a clash inside them. -/
theorem commuted_or_clashInside {first second : Circuit}
    (same : first.fingerprint = second.fingerprint) :
    Commuted first second ∨ ClashInside first second := by
  -- The induction is on the first circuit; the second one follows it node by node.
  induction first generalizing second with
  | input letter =>
    rcases sameNode_or_clash same with ⟨letter', inputs, rfl⟩ | node | clash
    · rw [inputs]
      exact Or.inl (.input letter')
    · exact node.elim
    · exact Or.inr clash.inside
  | not child ih =>
    rcases sameNode_or_clash same with ⟨letter, inputs, -⟩ | node | clash
    · contradiction
    · cases second with
      | input letter => exact node.elim
      | binary gate left right => exact node.elim
      | not child' =>
        rcases ih node with commuted | clash
        · exact Or.inl (.not commuted)
        · exact Or.inr (clash.mono (subcircuits_subset_not _) (subcircuits_subset_not _))
    · exact Or.inr clash.inside
  | binary gate left right leftIH rightIH =>
    rcases sameNode_or_clash same with ⟨letter, inputs, -⟩ | node | clash
    · contradiction
    · cases second with
      | input letter => exact node.elim
      | not child => exact node.elim
      | binary gate' left' right' =>
        have inLeft' := subcircuits_subset_left gate' left' right'
        have inRight' := subcircuits_subset_right gate' left' right'
        obtain ⟨rfl, ⟨first, second⟩ | ⟨first, second⟩⟩ := node
        · exact operands_commuted_or_clashInside (.straight gate) inLeft' inRight' (leftIH first)
            (rightIH second)
        · exact operands_commuted_or_clashInside (.crossed gate) inRight' inLeft' (leftIH first)
            (rightIH second)
    · exact Or.inr clash.inside

/-- Fingerprints tell circuits apart up to the order of operands and up to collisions of the
checksum. If two circuits that are not commuted have the same fingerprint, then inside them are
two circuits whose fingerprints are equal because the checksum maps two different descriptions to
one number, or a description to the code point of a letter. The descriptions themselves never
confuse two gates or their operands. -/
theorem exists_clash_of_fingerprint_eq {first second : Circuit}
    (same : first.fingerprint = second.fingerprint) (different : ¬Commuted first second) :
    (∃ inner ∈ first.subcircuits, ∃ inner' ∈ second.subcircuits, Clash inner inner') ∧
      ∀ node node' text, node.description? = some text → node'.description? = some text →
        SameNode node node' := by
  rcases commuted_or_clashInside same with commuted | clash
  · exact absurd commuted different
  · exact ⟨clash, fun _ _ _ => sameNode_of_description?⟩

/-- A collision below exchanged operands: the checksum does not tell `OR(P,OR(K,S))` from
`NOR(D,W)`. -/
theorem exists_clash_of_fingerprint_eq_exchanged :
    let inner := binary .or (input ⟨15⟩) (binary .or (input ⟨10⟩) (input ⟨18⟩))
    let inner' := binary .nor (input ⟨3⟩) (input ⟨22⟩)
    let first := binary .and (not inner) (input ⟨0⟩)
    let second := binary .and (input ⟨0⟩) (not inner')
    first.fingerprint = second.fingerprint ∧ ¬Commuted first second ∧
      ∃ inner ∈ first.subcircuits, ∃ inner' ∈ second.subcircuits, Clash inner inner' := by
  intro inner inner' first second
  have same : first.fingerprint = second.fingerprint := by decide +kernel
  have depths : first.depth ≠ second.depth := by decide
  have different : ¬Commuted first second := fun commuted => depths commuted.depth_eq
  exact ⟨same, different, (exists_clash_of_fingerprint_eq same different).1⟩

end Circuit

end CircuitGrading
