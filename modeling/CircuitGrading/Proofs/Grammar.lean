import CircuitGrading.Expression.Grammar
import CircuitGrading.Proofs.Cutting

/-!
# The texts of the grammar

Expressions are built from their parts, and what tells the parts from one another is the level of
the brackets. An expression of depth `d` keeps its levels between zero and `d`, reaches `d`, leaves
no bracket open, and has its commas inside brackets (`Spells.nested`). So the first comma outside
brackets ends the first operand, and no text spells two circuits (`Spells.unique`), however deep
they are.
-/

namespace CircuitGrading

open Text

/-- The levels of a text lie between zero and the depth, which is reached; the text leaves no
bracket open, and the levels in front of its commas are above the bound. -/
structure Text.Nested (bound : Int) (depth : Nat) (text : Text) : Prop where
  /-- No level is negative or above the depth. -/
  within : Within 0 depth text
  /-- Every bracket is closed. -/
  balanced : level text = 0
  /-- Commas are inside brackets. -/
  enclosed : CommasAbove bound text
  /-- The depth is reached. -/
  deepest : ∃ front, front <+: text ∧ level front = depth

namespace Text.Nested

variable {bound : Int} {depth : Nat} {text : Text}

/-- Commas that are inside further brackets are inside the brackets of a call. -/
theorem operand (nested : Nested 0 depth text) : Nested (-1) depth text where
  within := nested.within
  balanced := nested.balanced
  enclosed := by
    intro front rest split
    have inside := nested.enclosed front rest split
    omega
  deepest := nested.deepest

/-- Two operands with a comma between them are as deep as the deeper one. -/
theorem operands {depth' : Nat} {text' : Text} (first : Nested (-1) depth text)
    (second : Nested (-1) depth' text') :
    Nested (-1) (max depth depth') (commaSeparated [text, text']) := by
  have comma : level [','] = 0 := rfl
  rw [commaSeparated_cons text (List.cons_ne_nil text' []), commaSeparated_singleton]
  refine ⟨?_, ?_, ?_, ?_⟩
  · rw [within_append, within_cons, first.balanced, comma]
    exact ⟨first.within.mono (by omega) (by omega), by omega,
      second.within.mono (by omega) (by omega)⟩
  · rw [level_append, level_cons, first.balanced, second.balanced, comma]
    rfl
  · rw [commasAbove_append, commasAbove_cons, first.balanced, comma]
    exact ⟨first.enclosed, fun _ => by omega, second.enclosed⟩
  · -- The deeper operand has the deepest beginning, seen from the start of the first one.
    rcases Nat.le_total depth' depth with deeper | deeper
    · obtain ⟨front, beginning, reached⟩ := first.deepest
      exact ⟨front, beginning.trans (List.prefix_append _ _), by rw [reached]; omega⟩
    · obtain ⟨front, beginning, reached⟩ := second.deepest
      refine ⟨text ++ ',' :: front, ?_, ?_⟩
      · exact (List.prefix_append_right_inj text).mpr
          (List.cons_prefix_cons.mpr ⟨rfl, beginning⟩)
      · rw [level_append, level_cons, first.balanced, reached, comma]
        omega

/-- The brackets of a call are one level deeper than its operands. -/
theorem call {name ending : Text} (nested : Nested (-1) depth text) (plain : Plain name)
    (commaless : ',' ∉ name) (ends : EndsCall ending) :
    Nested 0 (1 + depth) (name ++ '(' :: (text ++ ending)) := by
  have opening : level ['('] = 1 := rfl
  have flat : level name = 0 := plain.level_eq
  have last : level ending = -1 := by rcases ends with rfl | rfl <;> rfl
  have lastWithin : Within (-1) depth ending := by
    rcases ends with rfl | rfl
    · rw [within_cons, within_nil]
      have closing : level [')'] = -1 := rfl
      omega
    · rw [within_cons, within_cons, within_nil]
      have closing : level [')'] = -1 := rfl
      have comma : level [','] = 0 := rfl
      omega
  have lastCommas : CommasAbove (-1) ending := by
    rcases ends with rfl | rfl
    · exact commasAbove_of_not_mem (by decide)
    · rw [commasAbove_cons]
      exact ⟨fun _ => by decide, commasAbove_of_not_mem (by decide)⟩
  refine ⟨?_, ?_, ?_, ?_⟩
  · rw [within_append, within_cons, within_append, flat, opening, nested.balanced]
    exact ⟨plain.within.mono (by omega) (by omega), by omega,
      nested.within.mono (by omega) (by omega), lastWithin.mono (by omega) (by omega)⟩
  · rw [level_append, level_cons, level_append, flat, opening, nested.balanced, last]
    rfl
  · rw [commasAbove_append, commasAbove_cons, commasAbove_append, flat, opening, nested.balanced]
    exact ⟨commasAbove_of_not_mem commaless, fun impossible => absurd impossible (by decide),
      nested.enclosed, lastCommas⟩
  · obtain ⟨front, beginning, reached⟩ := nested.deepest
    refine ⟨name ++ '(' :: front, ?_, ?_⟩
    · exact (List.prefix_append_right_inj name).mpr (List.cons_prefix_cons.mpr
        ⟨rfl, beginning.trans (List.prefix_append _ _)⟩)
    · rw [level_append, level_cons, flat, opening, reached]
      omega

/-- What stands between a closed beginning of the text and the next comma is nothing. -/
theorem eq_nil_of_comma {front more rest rest' : Text} (nested : Nested 0 depth (front ++ more))
    (closed : level front = 0) (comma : ',' :: rest = more ++ ',' :: rest') : more = [] := by
  cases more with
  | nil => rfl
  | cons c more =>
    obtain ⟨rfl, -⟩ := List.cons.inj comma
    have inside := nested.enclosed front more rfl
    omega

/-- The first comma outside brackets ends the first operand. -/
theorem append_comma_inj {depth' : Nat} {text' rest rest' : Text} (nested : Nested 0 depth text)
    (nested' : Nested 0 depth' text') (same : text ++ ',' :: rest = text' ++ ',' :: rest') :
    text = text' ∧ rest = rest' := by
  rcases List.append_eq_append_iff.mp same with ⟨more, rfl, comma⟩ | ⟨more, rfl, comma⟩
  · obtain rfl := nested'.eq_nil_of_comma nested.balanced comma
    exact ⟨(List.append_nil text).symm, (List.cons.inj comma).2⟩
  · obtain rfl := nested.eq_nil_of_comma nested'.balanced comma
    exact ⟨List.append_nil text', (List.cons.inj comma).2.symm⟩

/-- The end of a call is no part of its last operand. -/
theorem append_ending_inj {depth' : Nat} {text' ending ending' : Text}
    (nested : Nested 0 depth text) (nested' : Nested 0 depth' text') (ends : EndsCall ending)
    (ends' : EndsCall ending') (same : text ++ ending = text' ++ ending') : text = text' := by
  have comma : ',' :: [','] = [','] ++ ',' :: [] := rfl
  rcases ends with rfl | rfl <;> rcases ends' with rfl | rfl
  · exact List.append_cancel_right same
  · rw [List.append_cons text'] at same
    obtain rfl := List.append_cancel_right same
    exact absurd (nested.eq_nil_of_comma nested'.balanced comma) (List.cons_ne_nil ',' [])
  · rw [List.append_cons text] at same
    obtain rfl := List.append_cancel_right same
    exact absurd (nested'.eq_nil_of_comma nested.balanced comma) (List.cons_ne_nil ',' [])
  · exact List.append_cancel_right same

/-- A text that is nested less deep than the bracket limit can be cut out of a call. -/
theorem separable (nested : Nested 0 depth text) (shallow : depth < bracketLimit) :
    Call.Separable text where
  inside := ⟨nested.within.mono (by omega) (by omega), nested.enclosed⟩
  balanced := nested.balanced

/-- A text that can be cut out of a call is nested less deep than the bracket limit. -/
theorem depth_lt (nested : Nested bound depth text) (separable : Call.Separable text) :
    depth < bracketLimit := by
  obtain ⟨front, beginning, reached⟩ := nested.deepest
  have limit := (separable.inside.within front beginning).2
  have positive : 0 < bracketLimit := by decide
  omega

end Text.Nested

/-- A capital letter is no bracket and no comma. -/
theorem ne_of_isUpper {c : Char} (capital : c.isUpper = true) : c ≠ '(' ∧ c ≠ ')' ∧ c ≠ ',' := by
  refine ⟨?_, ?_, ?_⟩ <;> rintro rfl <;> revert capital <;> decide

/-- The name of a letter is a capital letter. -/
theorem Letter.isUpper_char (letter : Letter) : letter.char.isUpper = true := by
  obtain ⟨index⟩ := letter
  revert index
  decide

/-- The names of gates are in capital letters. -/
theorem Gate.isUpper_of_mem_name {gate : Gate} {c : Char} (member : c ∈ gate.name.toList) :
    c.isUpper = true := by
  have capital : gate.name.toList.all Char.isUpper = true := by
    cases gate with
    | not => decide
    | binary gate => cases gate <;> decide
  exact List.all_eq_true.mp capital c member

/-- The name of a gate has no brackets. -/
theorem Gate.plain_name (gate : Gate) : Plain gate.name.toList := by
  intro c member
  obtain ⟨opening, closing, -⟩ := ne_of_isUpper (isUpper_of_mem_name member)
  exact ⟨opening, closing⟩

/-- The name of a gate has no commas. -/
theorem Gate.comma_not_mem_name (gate : Gate) : ',' ∉ gate.name.toList :=
  fun member => (ne_of_isUpper (isUpper_of_mem_name member)).2.2 rfl

/-- Gates with the same name are the same. -/
theorem Gate.name_toList_injective {gate gate' : Gate}
    (same : gate.name.toList = gate'.name.toList) : gate = gate' :=
  Option.some.inj (by rw [← ofName?_name gate, same, ofName?_name])

/-- A call is no letter. -/
theorem Letter.append_opening_ne (letter : Letter) (name rest : Text) :
    name ++ '(' :: rest ≠ [letter.char] := by
  intro same
  have member : '(' ∈ name ++ '(' :: rest :=
    List.mem_append_right name (List.mem_cons_self)
  rw [same, List.mem_singleton] at member
  exact (ne_of_isUpper letter.isUpper_char).1 member.symm

/-- The end of a call is its closing bracket. -/
theorem EndsCall.getLast?_call {ending : Text} (ends : EndsCall ending) (name operands : Text) :
    (name ++ '(' :: (operands ++ ending)).getLast? = some ')' := by
  rw [← List.cons_append, ← List.append_assoc]
  rcases ends with rfl | rfl
  · exact List.getLast?_concat
  · rw [List.append_cons]
    exact List.getLast?_concat

/-- A call of the negation is nested one level deeper than its operand. -/
theorem Text.Nested.not_call {depth : Nat} {operand ending : Text} (nested : Nested 0 depth operand)
    (ends : EndsCall ending) :
    Nested 0 (1 + depth) (Gate.not.name.toList ++ '(' :: (operand ++ ending)) :=
  nested.operand.call (Gate.plain_name .not) (Gate.comma_not_mem_name .not) ends

/-- A call of a binary gate is nested one level deeper than the deeper operand. -/
theorem Text.Nested.binary_call (gate : BinaryGate) {depth depth' : Nat}
    {first second ending : Text} (firstNested : Nested 0 depth first)
    (secondNested : Nested 0 depth' second) (ends : EndsCall ending) :
    Nested 0 (1 + max depth depth')
      (gate.name.toList ++ '(' :: (first ++ ',' :: (second ++ ending))) := by
  have both := (firstNested.operand.operands secondNested.operand).call
    (Gate.plain_name (.binary gate)) (Gate.comma_not_mem_name (.binary gate)) ends
  rwa [commaSeparated_pair] at both

namespace Spells

variable {text : Text} {circuit : Circuit}

/-- The levels of an expression are those of its circuit. -/
theorem nested (spells : Spells text circuit) : Nested 0 circuit.depth text := by
  induction spells with
  | input letter =>
    obtain ⟨opening, closing, comma⟩ := ne_of_isUpper letter.isUpper_char
    have plain : Plain [letter.char] :=
      plain_cons.mpr ⟨⟨opening, closing⟩, fun c member => absurd member List.not_mem_nil⟩
    refine ⟨plain.within, plain.level_eq, commasAbove_of_not_mem ?_, [], List.nil_prefix, rfl⟩
    exact fun member => comma (List.mem_singleton.mp member).symm
  | not _ ends ih => exact ih.not_call ends
  | binary gate _ _ ends firstIH secondIH => exact firstIH.binary_call gate secondIH ends

/-- An expression has characters. -/
theorem ne_nil (spells : Spells text circuit) : text ≠ [] := by
  cases spells <;> simp

/-- The expression of a gate is a call with the text of its operands one level less deep. -/
theorem exists_call (spells : Spells text circuit) (gates : 0 < circuit.depth) :
    ∃ name operands ending, Plain name ∧ EndsCall ending ∧
      Nested (-1) (circuit.depth - 1) operands ∧
      text = name ++ '(' :: (operands ++ ending) := by
  cases spells with
  | input letter => exact absurd gates (Nat.lt_irrefl 0)
  | @not operand child ending spells ends =>
    have depth : (Circuit.not child).depth - 1 = child.depth := by
      rw [Circuit.depth, Nat.add_sub_cancel_left]
    rw [depth]
    exact ⟨_, operand, ending, Gate.plain_name .not, ends, spells.nested.operand, rfl⟩
  | @binary gate first second left right ending firstSpells secondSpells ends =>
    have depth : (Circuit.binary gate left right).depth - 1 = max left.depth right.depth := by
      rw [Circuit.depth, Nat.add_sub_cancel_left]
    rw [depth]
    refine ⟨_, commaSeparated [first, second], ending, Gate.plain_name (.binary gate), ends,
      firstSpells.nested.operand.operands secondSpells.nested.operand, ?_⟩
    rw [commaSeparated_pair]
    rfl

/-- No text is an expression of two circuits. -/
theorem unique {circuit' : Circuit} (left : Spells text circuit) (right : Spells text circuit') :
    circuit = circuit' := by
  induction left generalizing circuit' with
  | input letter =>
    generalize same : [letter.char] = text at right
    cases right with
    | input letter' => rw [Letter.char_injective (List.cons.inj same).1]
    | not => exact absurd same.symm (letter.append_opening_ne _ _)
    | binary gate => exact absurd same.symm (letter.append_opening_ne _ _)
  | @not operand child ending spells ends ih =>
    have plain := Gate.plain_name .not
    generalize same : Gate.not.name.toList ++ '(' :: (operand ++ ending) = text at right
    cases right with
    | input letter => exact absurd same (letter.append_opening_ne _ _)
    | not spells' ends' =>
      obtain ⟨-, body⟩ := Call.append_opening_inj plain plain same
      obtain rfl := spells.nested.append_ending_inj spells'.nested ends ends' body
      rw [ih spells']
    | binary gate =>
      obtain ⟨named, -⟩ := Call.append_opening_inj plain (Gate.plain_name (.binary gate)) same
      have different := Gate.name_toList_injective named
      contradiction
  | @binary gate first second left right ending firstSpells secondSpells ends firstIH secondIH =>
    have plain := Gate.plain_name (.binary gate)
    generalize same :
      gate.name.toList ++ '(' :: (first ++ ',' :: (second ++ ending)) = text at right
    cases right with
    | input letter => exact absurd same (letter.append_opening_ne _ _)
    | not =>
      obtain ⟨named, -⟩ := Call.append_opening_inj plain (Gate.plain_name .not) same
      have different := Gate.name_toList_injective named
      contradiction
    | binary gate' firstSpells' secondSpells' ends' =>
      obtain ⟨named, body⟩ :=
        Call.append_opening_inj plain (Gate.plain_name (.binary gate')) same
      obtain rfl := Gate.binary.inj (Gate.name_toList_injective named)
      -- The comma that ends the first operand is the first one outside brackets in both readings.
      obtain ⟨rfl, tail⟩ := firstSpells.nested.append_comma_inj firstSpells'.nested body
      obtain rfl := secondSpells.nested.append_ending_inj secondSpells'.nested ends ends' tail
      rw [firstIH firstSpells', secondIH secondSpells']

end Spells

/-- Circuits with the same written form are the same. -/
theorem Circuit.expression_injective {circuit other : Circuit}
    (same : circuit.expression = other.expression) : circuit = other :=
  (same ▸ spells_expression circuit).unique (spells_expression other)

end CircuitGrading
