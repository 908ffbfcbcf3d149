import CircuitGrading.Proofs.Cutting
import CircuitGrading.Text.Fnv1a
import Mathlib.Algebra.GroupWithZero.Nat
import Mathlib.Algebra.Order.BigOperators.Group.List
import Mathlib.Algebra.Order.Group.Nat

/-!
# The shape of a call

What a cut finds stands in the text without loss: the name, an opening bracket, the arguments with
commas between them, at most one comma after the last, and the closing bracket
(`Call.cut_eq_ok_iff_standsIn`). The arguments are standalone texts, which is a condition on each
argument alone. They are disjoint parts of the text, next to the name and two brackets, so they
share what these leave of its size (`Call.StandsIn.sum_add_le`), in characters as well as in bytes.
Every argument is therefore smaller than the text, and going on from a text to one of its arguments
ends; each argument being one bracket deeper in the text, it ends within the bracket limit
(`Call.length_le_bracketLimit_of_isChain`).
-/

namespace CircuitGrading

namespace Text

/-- The text can be an argument of a call as far as brackets and commas are concerned. -/
structure Standalone (text : Text) : Prop where
  /-- Every bracket is opened before it is closed. -/
  opened : ∀ front, front <+: text → 0 ≤ level front
  /-- No bracket is left open. -/
  balanced : level text = 0
  /-- Every comma is inside brackets. -/
  enclosed : ∀ front rest, text = front ++ ',' :: rest → 0 < level front
  /-- With the bracket of the call, the bracket limit is kept. -/
  shallow : LevelAtMost 511 text

/-- A size of texts that adds up the sizes of the characters, where those of the brackets are one.
-/
structure Additive (size : Text → Nat) : Prop where
  /-- The size of a text with a suffix is the sum of the sizes. -/
  append : ∀ left right, size (left ++ right) = size left + size right
  /-- The size of an opening bracket is one. -/
  opening : size ['('] = 1
  /-- The size of a closing bracket is one. -/
  closing : size [')'] = 1

/-- The number of characters is additive. -/
theorem additive_length : Additive List.length where
  append _ _ := List.length_append
  opening := rfl
  closing := rfl

/-- The number of bytes of the encoding is additive. -/
theorem additive_length_utf8 : Additive fun text => (utf8 text).length where
  append left right := by simp only [utf8_append, List.length_append]
  opening := rfl
  closing := rfl

/-- Commas between texts only add to their sizes. -/
theorem Additive.sum_le {size : Text → Nat} (additive : Additive size) (texts : List Text) :
    (texts.map size).sum ≤ size (commaSeparated texts) := by
  induction texts with
  | nil => exact Nat.zero_le _
  | cons first rest ih =>
    rw [List.map_cons, List.sum_cons]
    by_cases more : rest = []
    · rw [more, commaSeparated_singleton]
      exact Nat.le_refl _
    · have parts : size (commaSeparated (first :: rest)) =
          size first + (size [','] + size (commaSeparated rest)) := by
        rw [commaSeparated_cons first more, additive.append, ← List.singleton_append,
          additive.append]
      omega

/-- Between its commas each of the texts stands behind a beginning that leaves no bracket open. -/
theorem exists_commaSeparated_eq {texts : List Text} (balanced : ∀ text ∈ texts, level text = 0)
    {text : Text} (member : text ∈ texts) :
    ∃ before after, commaSeparated texts = before ++ (text ++ after) ∧ level before = 0 := by
  induction texts with
  | nil => exact absurd member List.not_mem_nil
  | cons first rest ih =>
    rcases List.mem_cons.mp member with rfl | later
    · by_cases last : rest = []
      · refine ⟨[], [], ?_, level_nil⟩
        rw [last, commaSeparated_singleton, List.append_nil, List.nil_append]
      · exact ⟨[], ',' :: commaSeparated rest, commaSeparated_cons text last, level_nil⟩
    · have balanced' : ∀ text ∈ rest, level text = 0 := fun text member =>
        balanced text (List.mem_cons_of_mem first member)
      obtain ⟨before, after, split, flat⟩ := ih balanced' later
      refine ⟨first ++ ',' :: before, after, ?_, ?_⟩
      · rw [commaSeparated_cons first (List.ne_nil_of_mem later), split, List.append_assoc,
          List.cons_append]
      · have comma : level [','] = 0 := rfl
        rw [level_append, level_cons, balanced first List.mem_cons_self, flat, comma]
        rfl

end Text

namespace Call

open Text

variable {text tail argument : Text} {call : Call}

/-- A text can be cut out of a call exactly if it is standalone. -/
theorem separable_iff_standalone : Separable argument ↔ argument.Standalone := by
  have limit : bracketLimit = 512 := rfl
  constructor
  · rintro ⟨⟨within, enclosed⟩, balanced⟩
    refine ⟨fun front beginning => ?_, balanced, fun front rest split => ?_,
      fun front beginning => ?_⟩
    · have bounds := within front beginning
      omega
    · have above := enclosed front rest split
      omega
    · have bounds := within front beginning
      omega
  · rintro ⟨opened, balanced, enclosed, shallow⟩
    refine ⟨⟨fun front beginning => ?_, fun front rest split => ?_⟩, balanced⟩
    · have low := opened front beginning
      have high := shallow front beginning
      omega
    · have above := enclosed front rest split
      omega

/-- The call stands in the text, with the tail between its last argument and its closing bracket. -/
structure StandsIn (call : Call) (tail text : Text) : Prop where
  /-- No character is lost. -/
  whole : text = call.name ++ ['('] ++ commaSeparated call.arguments ++ tail ++ [')']
  /-- The tail is empty or a comma. -/
  spare : tail = [] ∨ tail = [',']
  /-- A comma follows an argument. -/
  after : tail = [','] → call.arguments ≠ []
  /-- Without a comma behind it the last argument has characters. -/
  last : tail = [] → call.arguments ≠ [] → call.arguments.getLast? ≠ some []
  /-- The name has no brackets. -/
  plain : Plain call.name
  /-- The arguments are standalone. -/
  standalone : ∀ argument ∈ call.arguments, argument.Standalone

/-- A text is cut into a call exactly if the call stands in it. -/
theorem cut_eq_ok_iff_standsIn : cut text = .ok call ↔ ∃ tail, call.StandsIn tail text := by
  rw [cut_eq_ok_iff]
  constructor
  · rintro ⟨ending, ⟨plain, separable, ends⟩, rfl⟩
    have standalone : ∀ argument ∈ call.arguments, argument.Standalone :=
      fun argument member => separable_iff_standalone.mp (separable argument member)
    rcases ends with ⟨rfl, characters⟩ | ⟨rfl, nonempty⟩
    · refine ⟨[], by simp, Or.inl rfl, ?_, fun _ _ => characters, plain, standalone⟩
      intro comma
      contradiction
    · refine ⟨[','], by simp, Or.inr rfl, fun _ => nonempty, ?_, plain, standalone⟩
      intro none
      contradiction
  · rintro ⟨tail, rfl, spare, after, last, plain, standalone⟩
    have separable : ∀ argument ∈ call.arguments, Separable argument :=
      fun argument member => separable_iff_standalone.mpr (standalone argument member)
    refine ⟨tail ++ [')'], ⟨plain, separable, ?_⟩, by simp⟩
    rcases spare with rfl | rfl
    · refine Or.inl ⟨rfl, ?_⟩
      by_cases none : call.arguments = []
      · rw [none]
        simp
      · exact last rfl none
    · exact Or.inr ⟨rfl, after rfl⟩

/-- The arguments share the size of the text with the name and the two brackets. -/
theorem StandsIn.sum_add_le {size : Text → Nat} (additive : Additive size)
    (stands : call.StandsIn tail text) :
    (call.arguments.map size).sum + size call.name + 2 ≤ size text := by
  have apart := additive.sum_le call.arguments
  have parts : size text =
      size call.name + 1 + size (commaSeparated call.arguments) + size tail + 1 := by
    rw [stands.whole]
    simp only [additive.append, additive.opening, additive.closing]
  omega

/-- An argument is smaller than the text. -/
theorem StandsIn.size_lt {size : Text → Nat} (additive : Additive size)
    (stands : call.StandsIn tail text) (member : argument ∈ call.arguments) :
    size argument < size text := by
  have share : size argument ≤ (call.arguments.map size).sum :=
    List.le_sum_of_mem (List.mem_map_of_mem member)
  have total := stands.sum_add_le additive
  omega

/-- The levels of an argument are one lower than those that it has in the text. -/
theorem StandsIn.exists_levelAtMost {bound : Nat} (stands : call.StandsIn tail text)
    (low : LevelAtMost bound text) (member : argument ∈ call.arguments) :
    ∃ lower, bound = lower + 1 ∧ LevelAtMost lower argument := by
  have balanced : ∀ argument ∈ call.arguments, level argument = 0 := fun argument member =>
    (stands.standalone argument member).balanced
  obtain ⟨before, after, split, flat⟩ := exists_commaSeparated_eq balanced member
  have deeper : ∀ front, front <+: argument → level front + 1 ≤ bound := by
    rintro front ⟨rest, rfl⟩
    have beginning : call.name ++ '(' :: (before ++ front) <+: text := by
      refine ⟨rest ++ after ++ tail ++ [')'], ?_⟩
      rw [stands.whole, split]
      simp only [List.append_assoc, List.cons_append, List.nil_append]
    have raised : level (call.name ++ '(' :: (before ++ front)) = level front + 1 := by
      rw [level_append, level_cons_opening, level_append, stands.plain.level_eq, flat]
      omega
    have bounded := low _ beginning
    omega
  have start := deeper [] List.nil_prefix
  rw [level_nil] at start
  refine ⟨bound - 1, by omega, fun front beginning => ?_⟩
  have bounded := deeper front beginning
  omega

/-- The argument is found when the text is cut. Reading an expression goes on from a text to such
arguments only. -/
def ArgumentOf (argument text : Text) : Prop :=
  ∃ call, cut text = .ok call ∧ argument ∈ call.arguments

/-- Going on from a text to one of its arguments ends. -/
theorem wellFounded_argumentOf : WellFounded ArgumentOf := by
  have shorter : Subrelation ArgumentOf (fun argument text => argument.length < text.length) := by
    rintro argument text ⟨call, done, member⟩
    exact length_lt_of_mem_arguments done member
  exact shorter.wf (measure List.length).wf

/-- Arguments of arguments are found at most as often as the levels of the text are high. -/
theorem length_le_of_isChain {bound : Nat} {parts : List Text}
    (nested : List.IsChain (fun whole part => ArgumentOf part whole) (text :: parts))
    (low : LevelAtMost bound text) : parts.length ≤ bound := by
  -- Along the parts: from each to the next the bound is lowered by one.
  induction parts generalizing text bound with
  | nil => exact Nat.zero_le bound
  | cons part parts ih =>
    rw [List.isChain_cons_cons] at nested
    obtain ⟨⟨call, done, member⟩, later⟩ := nested
    obtain ⟨tail, stands⟩ := cut_eq_ok_iff_standsIn.mp done
    obtain ⟨lower, rfl, deeper⟩ := stands.exists_levelAtMost low member
    exact Nat.succ_le_succ (ih later deeper)

/-- However long a text is, reading it is never nested deeper than the bracket limit. -/
theorem length_le_bracketLimit_of_isChain {parts : List Text}
    (nested : List.IsChain (fun whole part => ArgumentOf part whole) (text :: parts)) :
    parts.length ≤ bracketLimit := by
  cases parts with
  | nil => exact Nat.zero_le bracketLimit
  | cons part parts =>
    rw [List.isChain_cons_cons] at nested
    obtain ⟨⟨call, done, member⟩, later⟩ := nested
    obtain ⟨tail, stands⟩ := cut_eq_ok_iff_standsIn.mp done
    exact Nat.succ_le_succ (length_le_of_isChain later (stands.standalone part member).shallow)

/-- A cut loses nothing and its parts are smaller than the whole. A text is cut into a call exactly
if it is the name of the call and, in brackets, the arguments with commas between them, where the
name has no brackets, the arguments are standalone, and one comma may follow them, which must follow
an empty last argument. Then each argument is smaller than the text, all of them leave room for the
name and the brackets, in characters and in bytes, and no text has an endless sequence of arguments
of arguments. -/
theorem cut_lossless_and_smaller (text : Text) (call : Call) :
    (cut text = .ok call ↔ ∃ tail, call.StandsIn tail text) ∧
    (cut text = .ok call →
      (∀ argument ∈ call.arguments,
        argument.length < text.length ∧ argument.utf8.length < text.utf8.length) ∧
      (call.arguments.map List.length).sum + call.name.length + 2 ≤ text.length ∧
      (call.arguments.map fun argument => argument.utf8.length).sum + call.name.utf8.length + 2 ≤
        text.utf8.length) ∧
    WellFounded ArgumentOf := by
  refine ⟨cut_eq_ok_iff_standsIn, fun done => ?_, wellFounded_argumentOf⟩
  obtain ⟨tail, stands⟩ := cut_eq_ok_iff_standsIn.mp done
  refine ⟨fun argument member => ⟨?_, ?_⟩, ?_, ?_⟩
  · exact stands.size_lt additive_length member
  · exact stands.size_lt additive_length_utf8 member
  · exact stands.sum_add_le additive_length
  · exact stands.sum_add_le additive_length_utf8

/-- A name that is no gate, an argument of two bytes, one with a comma in brackets, an empty one at
the end and the spare comma that it needs. -/
theorem cut_lossless_and_smaller_empty_last :
    let text : Text := "Or(é,AND(A,(,)),,)".toList
    let call : Call := ⟨"Or".toList, ["é".toList, "AND(A,(,))".toList, []]⟩
    cut text = .ok call ∧ (∃ tail, call.StandsIn tail text) ∧
      (call.arguments.map fun argument => argument.utf8.length).sum + call.name.utf8.length + 2 ≤
        text.utf8.length := by
  intro text call
  have done : cut text = .ok call := by decide
  obtain ⟨shape, sizes, -⟩ := cut_lossless_and_smaller text call
  obtain ⟨-, -, bytes⟩ := sizes done
  exact ⟨done, shape.mp done, bytes⟩

end Call

end CircuitGrading
