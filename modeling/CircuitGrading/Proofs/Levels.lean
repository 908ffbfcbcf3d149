import CircuitGrading.Expression.Level
import Mathlib.Data.List.Infix
import Mathlib.Order.Basic

/-!
# Levels of composite texts

Whether a scan may take a text as part of an argument is a statement about the levels of all its
beginnings (`Text.Within`) and about the levels in front of its commas (`Text.CommasAbove`). Both
are decided character by character and piece by piece: a piece stands in its surroundings with the
bounds lowered by the level in front of it (`within_append`, `commasAbove_append`).
-/

namespace CircuitGrading.Text

/-- The levels of a text are looked up at its beginnings. -/
instance (bound : Nat) (text : Text) : Decidable (LevelAtMost bound text) :=
  decidable_of_iff (∀ front ∈ text.inits, level front ≤ bound) (by
    simp only [LevelAtMost, List.mem_inits])

/-- The level of a text is that of its first character and that of the rest. -/
theorem level_cons (c : Char) (text : Text) : level (c :: text) = level [c] + level text :=
  level_append [c] text

/-- A character that is no bracket has level zero. -/
theorem level_singleton {c : Char} (opening : c ≠ '(') (closing : c ≠ ')') : level [c] = 0 :=
  level_cons_of_not_bracket [] opening closing

/-- No character of the text is a bracket. -/
def Plain (text : Text) : Prop := ∀ c ∈ text, c ≠ '(' ∧ c ≠ ')'

/-- Every beginning of the text has a level between the bounds. -/
def Within (low high : Int) (text : Text) : Prop :=
  ∀ front, front <+: text → low ≤ level front ∧ level front ≤ high

/-- Every comma of the text has a level above the bound in front of it. -/
def CommasAbove (bound : Int) (text : Text) : Prop :=
  ∀ front rest, text = front ++ ',' :: rest → bound < level front

/-- Wider bounds hold as well. -/
theorem Within.mono {low high low' high' : Int} {text : Text} (within : Within low high text)
    (lower : low' ≤ low) (higher : high ≤ high') : Within low' high' text := by
  intro front beginning
  have bounds := within front beginning
  omega

/-- The empty text has level zero only. -/
theorem within_nil {low high : Int} : Within low high [] ↔ low ≤ 0 ∧ 0 ≤ high := by
  simp only [Within, List.prefix_nil, forall_eq, level_nil]

/-- After the first character the bounds are lowered by its level. -/
theorem within_cons {low high : Int} {c : Char} {text : Text} :
    Within low high (c :: text) ↔
      (low ≤ 0 ∧ 0 ≤ high) ∧ Within (low - level [c]) (high - level [c]) text := by
  constructor
  · intro within
    refine ⟨within [] List.nil_prefix, fun front beginning => ?_⟩
    have bounds := within (c :: front) (List.cons_prefix_cons.mpr ⟨rfl, beginning⟩)
    rw [level_cons] at bounds
    omega
  · rintro ⟨start, later⟩ front beginning
    rcases List.prefix_cons_iff.mp beginning with rfl | ⟨front, rfl, shorter⟩
    · exact start
    · have bounds := later front shorter
      rw [level_cons c front]
      omega

/-- After a first piece the bounds are lowered by its level. -/
theorem within_append {low high : Int} {left right : Text} :
    Within low high (left ++ right) ↔
      Within low high left ∧ Within (low - level left) (high - level left) right := by
  induction left generalizing low high with
  | nil =>
    rw [List.nil_append, within_nil, level_nil, Int.sub_zero, Int.sub_zero]
    exact ⟨fun within => ⟨within [] List.nil_prefix, within⟩, fun both => both.2⟩
  | cons c rest ih =>
    have lowered : ∀ bound : Int, bound - level [c] - level rest = bound - level (c :: rest) := by
      intro bound
      rw [level_cons c rest]
      omega
    rw [List.cons_append, within_cons, within_cons, ih, lowered, lowered, ← and_assoc]

/-- The empty text has no commas. -/
theorem commasAbove_nil {bound : Int} : CommasAbove bound [] := by
  intro front rest empty
  simp at empty

/-- After the first character the bound is lowered by its level. -/
theorem commasAbove_cons {bound : Int} {c : Char} {text : Text} :
    CommasAbove bound (c :: text) ↔
      (c = ',' → bound < 0) ∧ CommasAbove (bound - level [c]) text := by
  constructor
  · intro above
    refine ⟨?_, fun front rest split => ?_⟩
    · rintro rfl
      exact above [] text rfl
    · have later := above (c :: front) rest (by rw [split]; rfl)
      rw [level_cons] at later
      omega
  · rintro ⟨first, later⟩ front rest split
    cases front with
    | nil =>
      obtain ⟨comma, -⟩ := List.cons.inj split
      exact first comma
    | cons c' front =>
      obtain ⟨rfl, tail⟩ := List.cons.inj split
      have bounds := later front rest tail
      rw [level_cons]
      omega

/-- After a first piece the bound is lowered by its level. -/
theorem commasAbove_append {bound : Int} {left right : Text} :
    CommasAbove bound (left ++ right) ↔
      CommasAbove bound left ∧ CommasAbove (bound - level left) right := by
  induction left generalizing bound with
  | nil =>
    rw [List.nil_append, level_nil, Int.sub_zero]
    exact ⟨fun above => ⟨commasAbove_nil, above⟩, fun both => both.2⟩
  | cons c rest ih =>
    have lowered : bound - level [c] - level rest = bound - level (c :: rest) := by
      rw [level_cons c rest]
      omega
    rw [List.cons_append, commasAbove_cons, commasAbove_cons, ih, lowered, and_assoc]

/-- A text without commas has its commas above any level. -/
theorem commasAbove_of_not_mem {bound : Int} {text : Text} (commaless : ',' ∉ text) :
    CommasAbove bound text := by
  intro front rest split
  exact absurd (by simp [split]) commaless

/-- A text has no brackets exactly when neither its first character nor a later one is a bracket. -/
theorem plain_cons {c : Char} {text : Text} :
    Plain (c :: text) ↔ (c ≠ '(' ∧ c ≠ ')') ∧ Plain text :=
  List.forall_mem_cons

/-- A text either has no brackets or has a first one. -/
theorem plain_or_exists_first_bracket (text : Text) :
    Plain text ∨ ∃ name rest, Plain name ∧
      (text = name ++ '(' :: rest ∨ text = name ++ ')' :: rest) := by
  have none : Plain [] := fun c member => absurd member List.not_mem_nil
  induction text with
  | nil => exact Or.inl none
  | cons c text ih =>
    by_cases opening : c = '('
    · exact Or.inr ⟨[], text, none, Or.inl (by rw [opening]; rfl)⟩
    by_cases closing : c = ')'
    · exact Or.inr ⟨[], text, none, Or.inr (by rw [closing]; rfl)⟩
    rcases ih with plain | ⟨name, rest, plain, rfl | rfl⟩
    · exact Or.inl (plain_cons.mpr ⟨⟨opening, closing⟩, plain⟩)
    · exact Or.inr ⟨c :: name, rest, plain_cons.mpr ⟨⟨opening, closing⟩, plain⟩, Or.inl rfl⟩
    · exact Or.inr ⟨c :: name, rest, plain_cons.mpr ⟨⟨opening, closing⟩, plain⟩, Or.inr rfl⟩

/-- A text without brackets has level zero. -/
theorem Plain.level_eq {text : Text} (plain : Plain text) : level text = 0 := by
  induction text with
  | nil => rfl
  | cons c rest ih =>
    obtain ⟨opening, closing⟩ := plain c List.mem_cons_self
    rw [level_cons_of_not_bracket rest opening closing,
      ih fun c member => plain c (List.mem_cons_of_mem _ member)]

/-- All beginnings of a text without brackets have level zero. -/
theorem Plain.within {text : Text} (plain : Plain text) : Within 0 0 text := by
  intro front beginning
  have flat : level front = 0 :=
    Plain.level_eq fun c member => plain c (beginning.subset member)
  omega

/-- A text keeps its levels between two bounds, or a first bracket takes them out of the bounds. -/
theorem within_or_exists_leaving {low high : Int} (start : low ≤ 0 ∧ 0 ≤ high) (text : Text) :
    Within low high text ∨ ∃ front rest, Within low high front ∧
      ((text = front ++ '(' :: rest ∧ level front = high) ∨
        (text = front ++ ')' :: rest ∧ level front = low)) := by
  induction text generalizing low high with
  | nil => exact Or.inl (within_nil.mpr start)
  | cons c rest ih =>
    have empty : Within low high [] := within_nil.mpr start
    by_cases full : c = '(' ∧ high = 0
    · obtain ⟨rfl, rfl⟩ := full
      exact Or.inr ⟨[], rest, empty, Or.inl ⟨rfl, rfl⟩⟩
    by_cases spent : c = ')' ∧ low = 0
    · obtain ⟨rfl, rfl⟩ := spent
      exact Or.inr ⟨[], rest, empty, Or.inr ⟨rfl, rfl⟩⟩
    have start' : low - level [c] ≤ 0 ∧ 0 ≤ high - level [c] := by
      by_cases opening : c = '('
      · have one : level [c] = 1 := by rw [opening]; rfl
        have room : high ≠ 0 := fun zero => full ⟨opening, zero⟩
        omega
      · by_cases closing : c = ')'
        · have minusOne : level [c] = -1 := by rw [closing]; rfl
          have room : low ≠ 0 := fun zero => spent ⟨closing, zero⟩
          omega
        · have zero := level_singleton opening closing
          omega
    rcases ih start' with within | ⟨front, later, within, leaving⟩
    · exact Or.inl (within_cons.mpr ⟨start, within⟩)
    · refine Or.inr ⟨c :: front, later, within_cons.mpr ⟨start, within⟩, ?_⟩
      rw [level_cons]
      rcases leaving with ⟨rfl, above⟩ | ⟨rfl, below⟩
      · exact Or.inl ⟨rfl, by omega⟩
      · exact Or.inr ⟨rfl, by omega⟩

end CircuitGrading.Text
