import CircuitGrading.Proofs.Refusal

/-!
# Errors in brackets

The errors in brackets are decided on the whole text. Where its first bracket opens, the scan stops
at the first place behind it that leaves no bracket open; so what counts is whether the level
reaches the limit before such a place (`parse_eq_tooDeep_iff`) and whether there is one at all
(`parse_eq_unclosed_iff`). Arguments keep their levels between zero and the limit, so none of these
errors comes from an argument (`Circuit.Refused.not_ofBrackets`).
-/

namespace CircuitGrading

open Text

/-- The first bracket of the text. -/
def Text.firstBracket? (text : Text) : Option Char := text.find? Call.isBracket

/-- From the first opening bracket on, every beginning of the text leaves a bracket open. -/
def Text.StaysOpen (text : Text) : Prop :=
  ∀ front, front <+: text → '(' ∈ front → 0 < level front

instance (text : Text) : Decidable text.StaysOpen :=
  decidable_of_iff (∀ front ∈ text.inits, '(' ∈ front → 0 < level front) (by
    simp only [StaysOpen, List.mem_inits])

/-- The error is one in the brackets of an expression. -/
def SyntaxError.OfBrackets : SyntaxError → Prop
  | .strayClosing _ | .unclosed _ _ | .tooDeep _ => True
  | .missing | .badEnding _ | .notLetter _ | .wrongArity _ _ _ | .unknownGate _ => False

namespace Text

/-- The first bracket has no bracket before it. -/
theorem firstBracket?_eq_some_iff {text : Text} {bracket : Char} :
    text.firstBracket? = some bracket ↔ Call.isBracket bracket = true ∧
      ∃ name rest, Plain name ∧ text = name ++ bracket :: rest := by
  have plain : ∀ name : Text, Plain name ↔ ∀ c ∈ name, (!Call.isBracket c) = true := by
    intro name
    simp only [Plain, Call.isBracket, Bool.not_eq_true', Bool.or_eq_false_iff, beq_eq_false_iff_ne]
  simp only [firstBracket?, List.find?_eq_some_iff_append, plain]
  constructor
  · rintro ⟨isBracket, name, rest, split, outside⟩
    exact ⟨isBracket, name, rest, outside, split⟩
  · rintro ⟨isBracket, name, rest, outside, split⟩
    exact ⟨isBracket, name, rest, split, outside⟩

/-- A beginning of a call ends in the name or behind the first bracket. -/
theorem prefix_call_iff {name rest front : Text} :
    front <+: name ++ '(' :: rest ↔
      front <+: name ∨ ∃ early, early <+: rest ∧ front = name ++ '(' :: early := by
  constructor
  · intro beginning
    rcases List.prefix_or_prefix_of_prefix beginning (List.prefix_append name _) with
      within | ⟨behind, rfl⟩
    · exact Or.inl within
    · rcases List.prefix_cons_iff.mp ((List.prefix_append_right_inj name).mp beginning) with
        rfl | ⟨early, rfl, shorter⟩
      · rw [List.append_nil]
        exact Or.inl List.prefix_rfl
      · exact Or.inr ⟨early, shorter, rfl⟩
  · rintro (within | ⟨early, shorter, rfl⟩)
    · exact within.trans (List.prefix_append name _)
    · exact (List.prefix_append_right_inj name).mpr (List.cons_prefix_cons.mpr ⟨rfl, shorter⟩)

section Call

variable {name : Text} (plain : Plain name)

include plain

/-- The bracket of a call is one level above the name. -/
theorem level_call (rest : Text) : level (name ++ '(' :: rest) = level rest + 1 := by
  rw [level_append, plain.level_eq, level_cons_opening]
  omega

/-- A call stays open if the text behind its bracket closes no more brackets than it opens. -/
theorem staysOpen_call_iff {rest : Text} :
    StaysOpen (name ++ '(' :: rest) ↔ ∀ early, early <+: rest → 0 ≤ level early := by
  constructor
  · intro stays early shorter
    have positive := stays (name ++ '(' :: early)
      (prefix_call_iff.mpr (Or.inr ⟨early, shorter, rfl⟩))
      (List.mem_append_right name List.mem_cons_self)
    rw [level_call plain] at positive
    omega
  · intro nonnegative front beginning opening
    rcases prefix_call_iff.mp beginning with within | ⟨early, shorter, rfl⟩
    · exact absurd rfl (plain '(' (within.subset opening)).1
    · have bound := nonnegative early shorter
      rw [level_call plain]
      omega

/-- A call that stays open under a limit keeps the text behind its bracket below the limit. -/
theorem levelAtMost_and_staysOpen_call_iff {bound : Nat} {rest : Text} :
    LevelAtMost (bound + 1) (name ++ '(' :: rest) ∧ StaysOpen (name ++ '(' :: rest) ↔
      Within 0 bound rest := by
  rw [staysOpen_call_iff plain]
  constructor
  · rintro ⟨low, nonnegative⟩ early shorter
    have high := low (name ++ '(' :: early) (prefix_call_iff.mpr (Or.inr ⟨early, shorter, rfl⟩))
    rw [level_call plain] at high
    exact ⟨nonnegative early shorter, by omega⟩
  · intro within
    refine ⟨fun front beginning => ?_, fun early shorter => (within early shorter).1⟩
    rcases prefix_call_iff.mp beginning with inside | ⟨early, shorter, rfl⟩
    · have flat := plain.within front inside
      omega
    · have bounds := within early shorter
      rw [level_call plain]
      omega

end Call

end Text

namespace Circuit

open Call

/-- The brackets of a letter are not at fault. -/
theorem not_ofBrackets_of_parseLetter {text : Text} {error : SyntaxError}
    (failed : parseLetter text = .error error) : ¬error.OfBrackets := by
  rcases of_parseLetter_error failed with ⟨-, rfl⟩ | ⟨c, -, -, rfl⟩ | ⟨-, rfl⟩ <;> exact id

/-- A text that can be cut out of a call is not refused for its brackets. -/
theorem Refused.not_ofBrackets {text : Text} {error : SyntaxError} (refused : Refused text error)
    (separable : Separable text) : ¬error.OfBrackets := by
  induction refused with
  | noLetter _ failed => exact not_ofBrackets_of_parseLetter failed
  | noCall ending failed =>
    have within := separable.inside.within
    cases (cut_eq_error_iff ending).mp failed with
    | @stray name rest plain =>
      have closing : level [')'] = -1 := rfl
      have bounds := within (name ++ [')']) ⟨rest, List.append_assoc _ _ _⟩
      rw [level_append, plain.level_eq, closing] at bounds
      omega
    | @unclosed name rest plain inside =>
      have balanced := separable.balanced
      have nonnegative := (inside rest List.prefix_rfl).1
      rw [level_call plain] at balanced
      omega
    | @deep name front rest plain inside full =>
      have opening : level ['('] = 1 := rfl
      have bounds := within (name ++ '(' :: (front ++ ['(']))
        (prefix_call_iff.mpr (Or.inr ⟨_, ⟨rest, List.append_assoc _ _ _⟩, rfl⟩))
      rw [level_call plain, level_append, full, opening] at bounds
      omega
    | early => exact id
  | noGate => exact id
  | noArity => exact id
  | argument called member _ ih => exact ih (separable_of_mem_arguments called member)

/-- The errors in brackets are those of the cut. -/
theorem parse_eq_error_iff_of_brackets {text : Text} {error : SyntaxError}
    (brackets : error.OfBrackets) :
    parse text = .error error ↔ text.getLast? = some ')' ∧ Uncut text error := by
  constructor
  · intro failed
    cases refused_of_parse failed with
    | noLetter _ failed => exact absurd brackets (not_ofBrackets_of_parseLetter failed)
    | noCall ending failed => exact ⟨ending, (cut_eq_error_iff ending).mp failed⟩
    | noGate => exact absurd brackets id
    | noArity => exact absurd brackets id
    | argument called member refused =>
      exact absurd brackets (refused.not_ofBrackets (separable_of_mem_arguments called member))
  · rintro ⟨ending, uncut⟩
    exact parse_of_cut_error ending ((cut_eq_error_iff ending).mpr uncut)

/-- A text is refused for a stray closing bracket exactly if its first bracket closes. -/
theorem parse_eq_strayClosing_iff {text fragment : Text} :
    parse text = .error (.strayClosing fragment) ↔
      text.getLast? = some ')' ∧ text.firstBracket? = some ')' ∧ fragment = text := by
  have brackets : (SyntaxError.strayClosing fragment).OfBrackets := trivial
  rw [parse_eq_error_iff_of_brackets brackets, firstBracket?_eq_some_iff]
  refine and_congr_right fun _ => ⟨fun uncut => ?_, ?_⟩
  · cases uncut with
    | stray plain => exact ⟨⟨rfl, _, _, plain, rfl⟩, rfl⟩
  · rintro ⟨⟨-, name, rest, plain, rfl⟩, rfl⟩
    exact .stray plain

/-- A text is refused for the bracket limit exactly if its first bracket opens and the level goes
above the limit before it returns to zero. -/
theorem parse_eq_tooDeep_iff {text : Text} {limit : Nat} :
    parse text = .error (.tooDeep limit) ↔
      text.getLast? = some ')' ∧ text.firstBracket? = some '(' ∧
        (∃ front, front <+: text ∧ StaysOpen front ∧ level front = bracketLimit + 1) ∧
        limit = bracketLimit := by
  have brackets : (SyntaxError.tooDeep limit).OfBrackets := trivial
  rw [parse_eq_error_iff_of_brackets brackets, firstBracket?_eq_some_iff]
  refine and_congr_right fun ending => ⟨fun uncut => ?_, ?_⟩
  · cases uncut with
    | @deep name front rest plain within full =>
      have opening : level ['('] = 1 := rfl
      refine ⟨⟨rfl, name, _, plain, rfl⟩, ⟨name ++ '(' :: (front ++ ['(']), ?_, ?_, ?_⟩, rfl⟩
      · exact prefix_call_iff.mpr (Or.inr ⟨_, ⟨rest, List.append_assoc _ _ _⟩, rfl⟩)
      · rw [staysOpen_call_iff plain]
        intro early shorter
        rcases List.prefix_concat_iff.mp shorter with rfl | earlier
        · rw [level_append, full, opening]
          decide
        · exact (within early earlier).1
      · rw [level_call plain, level_append, full, opening]
        omega
  · rintro ⟨⟨-, name, rest, plain, rfl⟩, ⟨front, beginning, stays, deep⟩, rfl⟩
    rw [← cut_eq_error_iff ending]
    rcases prefix_call_iff.mp beginning with inside | ⟨early, shorter, rfl⟩
    · have flat := plain.within front inside
      omega
    · rw [level_call plain] at deep
      have nonnegative := (staysOpen_call_iff plain).mp stays
      have scan : ∀ whole, cutArguments whole 0 [] [] rest = .error (.tooDeep bracketLimit) :=
        fun whole => cutArguments_tooDeep whole (by decide) shorter
          (fun front begins => by have bound := nonnegative front begins; omega) (by omega)
      rw [cut_of_opening plain, scan]
      rfl

/-- A text is refused for unclosed brackets exactly if its first bracket opens and the level stays
within the limit and never returns to zero. -/
theorem parse_eq_unclosed_iff {text fragment : Text} {opened : Nat} :
    parse text = .error (.unclosed fragment opened) ↔
      text.getLast? = some ')' ∧ text.firstBracket? = some '(' ∧ LevelAtMost bracketLimit text ∧
        StaysOpen text ∧ fragment = text ∧ (opened : Int) = level text := by
  have brackets : (SyntaxError.unclosed fragment opened).OfBrackets := trivial
  rw [parse_eq_error_iff_of_brackets brackets, firstBracket?_eq_some_iff]
  refine and_congr_right fun _ => ⟨fun uncut => ?_, ?_⟩
  · cases uncut with
    | @unclosed name rest plain within =>
      obtain ⟨low, stays⟩ := (levelAtMost_and_staysOpen_call_iff plain).mpr within
      have nonnegative := (within rest List.prefix_rfl).1
      refine ⟨⟨rfl, name, rest, plain, rfl⟩, low, stays, rfl, ?_⟩
      rw [level_call plain]
      omega
  · rintro ⟨⟨-, name, rest, plain, rfl⟩, low, stays, rfl, count⟩
    have within : Within 0 (bracketLimit - 1) rest :=
      (levelAtMost_and_staysOpen_call_iff plain).mp ⟨low, stays⟩
    have nonnegative := (within rest List.prefix_rfl).1
    rw [level_call plain] at count
    obtain rfl : opened = (level rest).toNat + 1 := by omega
    exact .unclosed plain within

/-- Unclosed brackets are one at least and, since the text ends with a closing one, fewer than the
limit. -/
theorem opened_of_parse_eq_unclosed {text fragment : Text} {opened : Nat}
    (failed : parse text = .error (.unclosed fragment opened)) :
    1 ≤ opened ∧ opened < bracketLimit := by
  obtain ⟨ending, first, low, stays, -, count⟩ := parse_eq_unclosed_iff.mp failed
  have positive := stays text List.prefix_rfl (List.mem_of_find?_eq_some first)
  obtain ⟨front, rfl⟩ := List.getLast?_eq_some_iff.mp ending
  have closing : level [')'] = -1 := rfl
  have bound := low front (List.prefix_append front _)
  rw [level_append, closing] at count positive
  omega

/-- Errors in brackets are decided on the whole text, whatever else is wrong with it. A text that
ends with a closing bracket has a stray one exactly if its first bracket closes. If its first
bracket opens, the text is too deep exactly if the level reaches 513 before it returns to zero, and
it is unclosed exactly if no level is above 512 and none returns to zero; the brackets that are
counted are then those of the whole text. No argument of a call is refused for its brackets. -/
theorem bracket_errors_of_whole_text (text : Text) :
    (∀ fragment, parse text = .error (.strayClosing fragment) ↔
      text.getLast? = some ')' ∧ text.firstBracket? = some ')' ∧ fragment = text) ∧
    (∀ limit, parse text = .error (.tooDeep limit) ↔
      text.getLast? = some ')' ∧ text.firstBracket? = some '(' ∧
        (∃ front, front <+: text ∧ StaysOpen front ∧ level front = 513) ∧ limit = 512) ∧
    (∀ fragment opened, parse text = .error (.unclosed fragment opened) ↔
      text.getLast? = some ')' ∧ text.firstBracket? = some '(' ∧ LevelAtMost 512 text ∧
        StaysOpen text ∧ fragment = text ∧ (opened : Int) = level text) ∧
    (∀ fragment opened, parse text = .error (.unclosed fragment opened) →
      1 ≤ opened ∧ opened ≤ 511) ∧
    (∀ call argument error, cut text = .ok call → argument ∈ call.arguments →
      parse argument = .error error → ¬error.OfBrackets) := by
  refine ⟨fun fragment => parse_eq_strayClosing_iff, fun limit => parse_eq_tooDeep_iff,
    fun fragment opened => parse_eq_unclosed_iff, fun fragment opened failed => ?_,
    fun call argument error called member failed => ?_⟩
  · obtain ⟨some, few⟩ := opened_of_parse_eq_unclosed failed
    exact ⟨some, Nat.le_of_lt_succ few⟩
  · exact (refused_of_parse failed).not_ofBrackets (separable_of_mem_arguments called member)

/-- A bracket that is left open, and an argument that is refused for another reason. -/
theorem bracket_errors_of_whole_text_unclosed :
    let text : Text := "AND(A,NOT(B)".toList
    let argument : Text := "A+B".toList
    parse text = .error (.unclosed text 1) ∧ (1 ≤ 1 ∧ 1 ≤ 511) ∧
      cut "NOT(A+B)".toList = .ok ⟨"NOT".toList, [argument]⟩ ∧
      parse argument = .error (.badEnding argument) ∧
      ¬(SyntaxError.badEnding argument).OfBrackets := by
  intro text argument
  obtain ⟨-, -, unclosed, counted, -⟩ := bracket_errors_of_whole_text text
  obtain ⟨-, -, -, -, arguments⟩ := bracket_errors_of_whole_text "NOT(A+B)".toList
  have failed : parse text = .error (.unclosed text 1) := (unclosed text 1).mpr
    ⟨by decide, by decide, by decide, by decide, rfl, by decide⟩
  have called : cut "NOT(A+B)".toList = .ok ⟨"NOT".toList, [argument]⟩ := by decide
  have refused : parse argument = .error (.badEnding argument) := by
    rw [parse_eq, if_neg (by decide)]
    rfl
  exact ⟨failed, counted text 1 failed, called, refused,
    arguments _ argument _ called List.mem_cons_self refused⟩

end Circuit

end CircuitGrading
