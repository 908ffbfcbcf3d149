import CircuitGrading.Proofs.Reading
import CircuitGrading.Text.SpareComma

/-!
# The canonical text of an expression

An expression is written back as it was read, but for its spare commas. No expression begins with
a closing bracket or ends with a comma, since its levels are not negative and its commas are inside
brackets; so a comma is spare only where the grammar lets a call end with one
(`Spells.expression_eq`). Two texts that are read are therefore read as the same circuit exactly if
they differ in spare commas only (`Circuit.writesBack_of_parse`).
-/

namespace CircuitGrading

open Text

namespace Text.Nested

variable {depth : Nat} {text : Text}

/-- No expression begins with a closing bracket. -/
theorem head?_ne_closing {bound : Int} (nested : Nested bound depth text) :
    text.head? ≠ some ')' := by
  intro closing
  obtain ⟨rest, rfl⟩ := List.head?_eq_some_iff.mp closing
  have level : level [')'] = -1 := rfl
  have bounds := nested.within [')'] (List.prefix_append [')'] rest)
  omega

/-- No expression ends with a comma. -/
theorem getLast?_ne_comma (nested : Nested 0 depth text) : text.getLast? ≠ some ',' := by
  intro last
  obtain ⟨front, rfl⟩ := List.getLast?_eq_some_iff.mp last
  have comma : level [','] = 0 := rfl
  have inside := nested.enclosed front [] rfl
  have closed := nested.balanced
  rw [level_append, comma] at closed
  omega

end Text.Nested

/-- A call without its spare commas ends with its closing bracket. -/
theorem EndsCall.dropSpareCommas_eq {ending : Text} (ends : EndsCall ending) :
    ending.dropSpareCommas = [')'] := by
  rcases ends with rfl | rfl <;> rfl

/-- The spare commas of a call are those between its brackets. -/
theorem Gate.dropSpareCommas_call (gate : Gate) (body : Text) :
    dropSpareCommas (gate.name.toList ++ '(' :: body) =
      gate.name.toList ++ '(' :: dropSpareCommas body := by
  have kept : ¬('(' = ',' ∧ body.head? = some ')') := by simp
  rw [dropSpareCommas_append fun _ => by simp, dropSpareCommas_of_not_mem gate.comma_not_mem_name,
    dropSpareCommas_cons kept]

namespace Spells

variable {text : Text} {circuit : Circuit}

/-- An operand at the end of a call loses its own spare commas and that of the call. -/
theorem dropSpareCommas_append_ending (spells : Spells text circuit) {ending : Text}
    (ends : EndsCall ending) :
    (text ++ ending).dropSpareCommas = text.dropSpareCommas ++ [')'] := by
  rw [dropSpareCommas_append fun last => absurd last spells.nested.getLast?_ne_comma,
    ends.dropSpareCommas_eq]

/-- The written form of a circuit is any expression of the circuit without its spare commas. -/
theorem expression_eq (spells : Spells text circuit) :
    circuit.expression = text.dropSpareCommas := by
  induction spells with
  | input letter =>
    have commaless : ',' ∉ [letter.char] := fun member =>
      (ne_of_isUpper letter.isUpper_char).2.2 (List.mem_singleton.mp member).symm
    rw [dropSpareCommas_of_not_mem commaless]
    rfl
  | not spells ends ih =>
    rw [Gate.dropSpareCommas_call, spells.dropSpareCommas_append_ending ends, ← ih]
    rfl
  | @binary gate first second left right ending firstSpells secondSpells ends firstIH secondIH =>
    -- The comma between the operands is not spare, for the second one does not begin with `)`.
    have needed : ¬(',' = ',' ∧ (second ++ ending).head? = some ')') := by
      rintro ⟨-, closing⟩
      rw [List.head?_append_of_ne_nil _ secondSpells.ne_nil] at closing
      exact secondSpells.nested.head?_ne_closing closing
    have firstLast : first.getLast? = some ',' → (',' :: (second ++ ending)).head? ≠ some ')' :=
      fun last => absurd last firstSpells.nested.getLast?_ne_comma
    have call := (Gate.binary gate).dropSpareCommas_call (first ++ ',' :: (second ++ ending))
    rw [dropSpareCommas_append firstLast, dropSpareCommas_cons needed,
      secondSpells.dropSpareCommas_append_ending ends, ← firstIH, ← secondIH] at call
    exact call.symm

end Spells

namespace Circuit

/-- What a reader accepts is written back as the text in the form that the reader looks at, without
its spare commas. -/
structure WritesBack (reader : Text → Except SyntaxError Circuit) (form : Text → Text) : Prop where
  /-- The written form of what was read is the text without its spare commas. -/
  written : ∀ {text circuit}, reader text = .ok circuit →
    circuit.expression = (form text).dropSpareCommas
  /-- The text itself is written exactly if it has no spare comma. -/
  unchanged : ∀ {text circuit}, reader text = .ok circuit →
    (circuit.expression = form text ↔ ¬",)".toList <:+: form text)
  /-- Texts are read as the same circuit exactly if they are the same without their spare commas. -/
  same : ∀ {text text' circuit circuit'}, reader text = .ok circuit → reader text' = .ok circuit' →
    (reader text = reader text' ↔ (form text).dropSpareCommas = (form text').dropSpareCommas)

/-- Any text that is read is written back without its spare commas. -/
theorem writesBack_of_parse {reader : Text → Except SyntaxError Circuit} {form : Text → Text}
    (reads : ∀ text, reader text = parse (form text)) : WritesBack reader form := by
  have written : ∀ {text circuit}, reader text = .ok circuit →
      circuit.expression = (form text).dropSpareCommas := by
    intro text circuit done
    rw [reads] at done
    exact (spells_of_parse done).1.expression_eq
  refine ⟨written, fun done => ?_, fun {text text' circuit circuit'} done done' => ?_⟩
  · rw [written done]
    exact dropSpareCommas_eq_self_iff
  · rw [← written done, ← written done', done, done', Except.ok.injEq]
    exact ⟨congrArg expression, expression_injective⟩

/-- Reading and writing back gives the canonical text of an expression. An expression is written
as it was read, without the commas in front of closing brackets and with nothing else changed; it
is written unchanged exactly if it has no such comma; and two expressions are read as the same
circuit exactly if they become equal without such commas. For raw texts all this holds of the
condensed texts. -/
theorem canonical_text : WritesBack parse id ∧ WritesBack read condense :=
  ⟨writesBack_of_parse fun _ => rfl, writesBack_of_parse fun _ => rfl⟩

/-- Spare commas at two depths. -/
theorem canonical_text_spare_at_two_depths :
    let text : Text := "AND(NOT(A,),B,)".toList
    let circuit := binary .and (not (input ⟨0⟩)) (input ⟨1⟩)
    parse text = .ok circuit ∧ circuit.expression = dropSpareCommas text ∧
      circuit.expression ≠ text := by
  intro text circuit
  have comma : EndsCall [',', ')'] := Or.inr rfl
  have spells : Spells text circuit := .binary .and (.not (.input ⟨0⟩) comma) (.input ⟨1⟩) comma
  have done : parse text = .ok circuit := parse_of_spells spells (by decide)
  have spare : ",)".toList <:+: text := ⟨"AND(NOT(A".toList, ",B,)".toList, by decide⟩
  exact ⟨done, canonical_text.1.written done, fun same =>
    (canonical_text.1.unchanged done).mp same spare⟩

end Circuit

end CircuitGrading
