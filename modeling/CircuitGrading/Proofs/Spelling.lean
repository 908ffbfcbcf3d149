import CircuitGrading.Grading.Texts
import CircuitGrading.Proofs.Reading
import CircuitGrading.Proofs.Uppercase
import CircuitGrading.Text.Respelled

/-!
# Spelling carries no meaning

The skeleton of a text is the text without blanks and with capital letters in the ASCII range.
Every step of a respelling keeps the skeleton, and the skeleton is itself a respelling of the
text, so texts are respelled exactly when their skeletons agree (`respelled_iff_skeleton_eq`).
Condensing a text takes the uppercase forms of its skeleton: respelled texts are condensed to the
same text, and a condensed text to itself. What is read from a text and what is reported on it
depend on the condensed text alone (`spelling_carries_no_meaning`).
-/

namespace CircuitGrading

namespace Text

variable {text text' : Text}

/-- The text without blanks, with the letters of the ASCII range in upper case. -/
def skeleton (text : Text) : Text := (text.filter fun c => !isBlank c).map Char.toUpper

/-- A skeleton is made piece by piece. -/
theorem skeleton_append (left right : Text) :
    skeleton (left ++ right) = skeleton left ++ skeleton right := by
  simp [skeleton]

/-- A blank is no part of the skeleton. -/
theorem skeleton_cons_of_isBlank {c : Char} (text : Text) (blank : isBlank c = true) :
    skeleton (c :: text) = skeleton text := by
  simp [skeleton, blank]

/-- Every other character is part of the skeleton, in upper case. -/
theorem skeleton_cons_of_not_isBlank {c : Char} (text : Text) (solid : isBlank c = false) :
    skeleton (c :: text) = c.toUpper :: skeleton text := by
  simp [skeleton, solid]

/-- The two cases of a letter leave the same trace in a skeleton. -/
theorem skeleton_cons_congr {c d : Char} (text : Text) (same : c.toUpper = d.toUpper) :
    skeleton (c :: text) = skeleton (d :: text) := by
  have blankness : isBlank c = isBlank d := by
    rw [← isBlank_toUpper c, same, isBlank_toUpper d]
  cases blank : isBlank c with
  | true =>
    rw [skeleton_cons_of_isBlank text blank, skeleton_cons_of_isBlank text (blankness ▸ blank)]
  | false =>
    rw [skeleton_cons_of_not_isBlank text blank,
      skeleton_cons_of_not_isBlank text (blankness ▸ blank), same]

/-- A step keeps the skeleton. -/
theorem Respell.skeleton_eq (step : Respell text text') : skeleton text = skeleton text' := by
  cases step with
  | write front rest blank =>
    rw [skeleton_append, skeleton_append, skeleton_cons_of_isBlank rest blank]
  | strike front rest blank =>
    rw [skeleton_append, skeleton_append, skeleton_cons_of_isBlank rest blank]
  | recase front rest same =>
    rw [skeleton_append, skeleton_append, skeleton_cons_congr rest same]

/-- Any number of steps keep the skeleton. -/
theorem Respelled.skeleton_eq (steps : Respelled text text') : skeleton text = skeleton text' := by
  induction steps with
  | refl => rfl
  | tail _ last ih => rw [ih, last.skeleton_eq]

/-- The skeleton is a respelling of the text. -/
theorem respelled_skeleton (text : Text) : Respelled text (skeleton text) := by
  induction text with
  | nil => exact .refl
  | cons c text ih =>
    cases blank : isBlank c with
    | true =>
      rw [skeleton_cons_of_isBlank text blank]
      exact (Respelled.strike text blank).trans ih
    | false =>
      rw [skeleton_cons_of_not_isBlank text blank]
      exact ih.cons (toUpper_toUpper c).symm

/-- Texts are respelled exactly when they have the same skeleton. -/
theorem respelled_iff_skeleton_eq : Respelled text text' ↔ skeleton text = skeleton text' := by
  constructor
  · exact Respelled.skeleton_eq
  · intro same
    have back : Respelled (skeleton text) text' := by
      rw [same]
      exact (respelled_skeleton text').symm
    exact (respelled_skeleton text).trans back

/-- Whether two texts are respelled can be computed. -/
instance (text text' : Text) : Decidable (Respelled text text') :=
  decidable_of_iff _ respelled_iff_skeleton_eq.symm

/-- Condensing a text takes the uppercase forms of its skeleton. -/
theorem condense_eq_map_skeleton (text : Text) : condense text = (skeleton text).map uppercase := by
  rw [condense, skeleton, List.map_map]
  exact List.map_congr_left fun c _ => (uppercase_toUpper c).symm

/-- Respelled texts are condensed to the same text. -/
theorem Respelled.condense_eq (steps : Respelled text text') : condense text = condense text' := by
  rw [condense_eq_map_skeleton, steps.skeleton_eq, ← condense_eq_map_skeleton]

/-- In the ASCII range the condensed text is the skeleton. -/
theorem condense_of_ascii (ascii : ∀ c ∈ text, c.toNat < 128) : condense text = skeleton text :=
  List.map_congr_left fun c kept => uppercase_of_ascii (ascii c (List.mem_filter.mp kept).1)

/-- Condensing tells texts of the ASCII range apart that are not respelled. -/
theorem condense_eq_iff_respelled (ascii : ∀ c ∈ text, c.toNat < 128)
    (ascii' : ∀ c ∈ text', c.toNat < 128) :
    condense text = condense text' ↔ Respelled text text' := by
  rw [condense_of_ascii ascii, condense_of_ascii ascii', respelled_iff_skeleton_eq]

/-- The characters of a condensed text are uppercase forms of characters that are not blank. -/
theorem exists_of_mem_condense {c : Char} (member : c ∈ condense text) :
    ∃ solid, isBlank solid = false ∧ uppercase solid = c := by
  obtain ⟨solid, kept, form⟩ := List.mem_map.mp member
  exact ⟨solid, by simpa using (List.mem_filter.mp kept).2, form⟩

/-- A condensed text has no blanks and no small letters of the ASCII range. -/
theorem of_mem_condense {c : Char} (member : c ∈ condense text) :
    isBlank c = false ∧ c.isLower = false := by
  obtain ⟨solid, notBlank, rfl⟩ := exists_of_mem_condense member
  exact ⟨isBlank_uppercase notBlank, isLower_uppercase solid⟩

/-- A condensed text stays as it is. -/
theorem condense_condense (text : Text) : condense (condense text) = condense text := by
  have solid : (condense text).filter (fun c => !isBlank c) = condense text := by
    rw [List.filter_eq_self]
    intro c member
    rw [(of_mem_condense member).1, Bool.not_false]
  have final : (condense text).map uppercase = condense text := by
    rw [condense, List.map_map]
    exact List.map_congr_left fun c _ => uppercase_uppercase c
  rw [condense, solid, final]

end Text

/-- Texts that are condensed to the same text are read in the same way. -/
theorem Circuit.read_congr {text text' : Text} (same : text.condense = text'.condense) :
    Circuit.read text = Circuit.read text' := by
  rw [Circuit.read, Circuit.read, same]

/-- Texts that are read in the same way have the same report. -/
theorem gradeTexts_congr {submission submission' reference reference' : Text}
    (first : Circuit.read submission = Circuit.read submission')
    (second : Circuit.read reference = Circuit.read reference') :
    gradeTexts submission reference = gradeTexts submission' reference' := by
  rw [gradeTexts, gradeTexts, first, second]

open Text in
/-- Blanks and the case of letters carry no meaning. Condensing is done once for all: it leaves
neither blanks nor small letters of the ASCII range, and nothing to condense; texts of the ASCII
range become one text only if they are respelled. Respelled texts are read as the same circuit or
refused with the same error, and pairs of them have the same report; so have the condensed
texts. -/
theorem spelling_carries_no_meaning :
    (∀ text : Text, text.condense.condense = text.condense ∧
      ∀ c ∈ text.condense, isBlank c = false ∧ c.isLower = false) ∧
    (∀ text text' : Text, (∀ c ∈ text, c.toNat < 128) → (∀ c ∈ text', c.toNat < 128) →
      (text.condense = text'.condense ↔ Respelled text text')) ∧
    (∀ text text' : Text, Respelled text text' → Circuit.read text = Circuit.read text') ∧
    (∀ submission submission' reference reference' : Text,
      Respelled submission submission' → Respelled reference reference' →
      gradeTexts submission reference = gradeTexts submission' reference') ∧
    ∀ submission reference : Text,
      gradeTexts submission.condense reference.condense = gradeTexts submission reference := by
  have respelled : ∀ text text' : Text, Respelled text text' →
      Circuit.read text = Circuit.read text' :=
    fun _ _ steps => Circuit.read_congr steps.condense_eq
  have condensed : ∀ text : Text, Circuit.read text.condense = Circuit.read text :=
    fun text => Circuit.read_congr (condense_condense text)
  refine ⟨fun text => ⟨condense_condense text, fun c => of_mem_condense⟩,
    fun _ _ => condense_eq_iff_respelled, respelled, ?_, ?_⟩
  · intro submission submission' reference reference' first second
    exact gradeTexts_congr (respelled _ _ first) (respelled _ _ second)
  · intro submission reference
    exact gradeTexts_congr (condensed submission) (condensed reference)

open Text in
/-- An expression written loosely, graded against one that ends too early; the report has the error
of the condensed reference. -/
theorem spelling_carries_no_meaning_unclosed_reference :
    let report := gradeTexts " and( a,\tB )".toList "or(a , q".toList
    Respelled " and( a,\tB )".toList "AND(A,b)".toList ∧
    Respelled "or(a , q".toList "Or(A,Q ".toList ∧
    report = gradeTexts "AND(A,b)".toList "Or(A,Q ".toList ∧
    report = .ofSyntaxError .referenceCompileFailure (.badEnding "OR(A,Q".toList) ∧
    report.log = ["Expression 'OR(A,Q' is invalid: invalid ending"] := by
  intro report
  have submission : Respelled " and( a,\tB )".toList "AND(A,b)".toList := by decide
  have reference : Respelled "or(a , q".toList "Or(A,Q ".toList := by decide
  have spells : Spells "AND(A,B)".toList (.binary .and (.input ⟨0⟩) (.input ⟨1⟩)) :=
    .binary .and (.input ⟨0⟩) (.input ⟨1⟩) (Or.inl rfl)
  have condensed : condense " and( a,\tB )".toList = "AND(A,B)".toList := by decide +kernel
  have read : Circuit.read " and( a,\tB )".toList =
      .ok (.binary .and (.input ⟨0⟩) (.input ⟨1⟩)) := by
    rw [Circuit.read, condensed]
    exact Circuit.parse_of_spells spells (by decide)
  have failed : Circuit.read "or(a , q".toList = .error (.badEnding "OR(A,Q".toList) := by
    decide +kernel
  have reported : report =
      .ofSyntaxError .referenceCompileFailure (.badEnding "OR(A,Q".toList) := by
    simp only [report, gradeTexts, read, failed]
  refine ⟨submission, reference,
    spelling_carries_no_meaning.2.2.2.1 _ _ _ _ submission reference, reported, ?_⟩
  rw [reported]
  decide +kernel

end CircuitGrading
