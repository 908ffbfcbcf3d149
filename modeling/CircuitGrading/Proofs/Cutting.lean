import CircuitGrading.Expression.Call
import CircuitGrading.Proofs.Levels
import Mathlib.Data.List.TakeWhile

/-!
# Cutting calls

The scan of a call counts brackets and looks at nothing else. One character does one of four things
to it (`cutArguments_cons`): it joins the current argument, it ends the argument, it ends the call,
or it opens one bracket too many. From this follow both directions of the cut: a text of arguments
that keep to themselves is cut at the commas between them (`cutArguments_of_arguments`), and a text
that is cut was made of such arguments, no character being lost (`Scanned`). Together they say
exactly which texts are calls (`cut_eq_ok_iff`).
-/

namespace CircuitGrading

namespace Text

/-- No texts make the empty text. -/
theorem commaSeparated_nil : commaSeparated [] = [] := rfl

/-- A single text has no comma after it. -/
theorem commaSeparated_singleton (text : Text) : commaSeparated [text] = text :=
  List.intercalate_singleton

/-- A text that is not the last one is followed by a comma. -/
theorem commaSeparated_cons (first : Text) {rest : List Text} (more : rest ≠ []) :
    commaSeparated (first :: rest) = first ++ ',' :: commaSeparated rest := by
  rw [commaSeparated, List.intercalate_cons_of_ne_nil more, List.append_assoc]
  rfl

/-- Two texts with what follows them. -/
theorem commaSeparated_pair (first second rest : Text) :
    commaSeparated [first, second] ++ rest = first ++ ',' :: (second ++ rest) := by
  rw [commaSeparated_cons first (List.cons_ne_nil second []), commaSeparated_singleton,
    List.append_assoc, List.cons_append]

/-- Every text but the last one is followed by a comma. -/
theorem commaSeparated_append_singleton (front : List Text) (last : Text) :
    commaSeparated (front ++ [last]) = front.flatMap (· ++ [',']) ++ last := by
  induction front with
  | nil => exact commaSeparated_singleton last
  | cons first rest ih =>
    have more : rest ++ [last] ≠ [] := List.append_ne_nil_of_right_ne_nil rest (by simp)
    rw [List.cons_append, commaSeparated_cons first more, ih, List.flatMap_cons, List.append_assoc,
      List.append_assoc]
    rfl

end Text

namespace Call

open Text

/-- What a scan with `inner` further brackets open takes into the current argument: the piece closes
no bracket of the call, keeps to the bracket limit, and has its commas inside further brackets. -/
structure Inside (inner : Nat) (piece : Text) : Prop where
  /-- The call stays open and the bracket limit is kept. -/
  within : Within (-inner) (bracketLimit - 1 - inner) piece
  /-- No comma separates arguments of the call. -/
  enclosed : CommasAbove (-inner) piece

/-- The text can be cut out of a call as an argument: its brackets, commas and levels concern
itself only. -/
structure Separable (argument : Text) : Prop where
  /-- A scan takes the argument as a whole. -/
  inside : Inside 0 argument
  /-- The argument leaves no bracket open. -/
  balanced : level argument = 0

section Step

variable (whole current : Text) (complete : List Text) (rest : Text)

/-- An opening bracket raises the level unless the limit is reached. -/
theorem cutArguments_opening (inner : Nat) :
    cutArguments whole inner current complete ('(' :: rest) =
      if bracketLimit < inner + 2 then .error (.tooDeep bracketLimit)
      else cutArguments whole (inner + 1) ('(' :: current) complete rest := by
  rw [cutArguments.eq_def]
  dsimp only
  rw [if_pos rfl]

/-- A character that keeps the call open and within the limit, and is no comma between arguments,
joins the current argument. -/
theorem cutArguments_push {inner inner' : Nat} {c : Char}
    (next : (inner' : Int) = inner + level [c]) (shallow : inner' < bracketLimit)
    (enclosed : c = ',' → 0 < inner) :
    cutArguments whole inner current complete (c :: rest) =
      cutArguments whole inner' (c :: current) complete rest := by
  by_cases opening : c = '('
  · subst opening
    have one : level ['('] = 1 := rfl
    obtain rfl : inner' = inner + 1 := by omega
    rw [cutArguments_opening, if_neg (by omega)]
  · by_cases closing : c = ')'
    · subst closing
      have minusOne : level [')'] = -1 := rfl
      obtain rfl : inner = inner' + 1 := by omega
      rw [cutArguments, if_neg opening, if_pos rfl]
    · have zero := level_singleton opening closing
      obtain rfl : inner' = inner := by omega
      have noSeparator : ¬(c = ',' ∧ inner' = 0) := fun both =>
        absurd (enclosed both.1) (by omega)
      rw [cutArguments.eq_def]
      dsimp only
      rw [if_neg opening, if_neg closing, if_neg noSeparator]

/-- A comma that is not inside further brackets ends the current argument. -/
theorem cutArguments_comma :
    cutArguments whole 0 current complete (',' :: rest) =
      cutArguments whole 0 [] (current.reverse :: complete) rest := by
  rw [cutArguments, if_neg (by decide), if_neg (by decide), if_pos ⟨rfl, rfl⟩]

/-- The closing bracket of the call ends the call, which must end the text. -/
theorem cutArguments_close :
    cutArguments whole 0 current complete (')' :: rest) =
      if rest = [] then .ok (finish current complete) else .error (.badEnding whole) := by
  rw [cutArguments, if_neg (by decide), if_pos rfl]

/-- What one character can do to a scan within the bracket limit. -/
theorem cutArguments_cons {inner : Nat} (shallow : inner < bracketLimit) (c : Char) :
    (∃ inner' : Nat, (inner' : Int) = inner + level [c] ∧ inner' < bracketLimit ∧
      (c = ',' → 0 < inner) ∧
      cutArguments whole inner current complete (c :: rest) =
        cutArguments whole inner' (c :: current) complete rest) ∨
    (c = ',' ∧ inner = 0 ∧
      cutArguments whole inner current complete (c :: rest) =
        cutArguments whole 0 [] (current.reverse :: complete) rest) ∨
    (c = ')' ∧ inner = 0 ∧
      cutArguments whole inner current complete (c :: rest) =
        if rest = [] then .ok (finish current complete) else .error (.badEnding whole)) ∨
    (c = '(' ∧ inner + 1 = bracketLimit ∧
      cutArguments whole inner current complete (c :: rest) = .error (.tooDeep bracketLimit)) := by
  by_cases separator : c = ',' ∧ inner = 0
  · obtain ⟨rfl, rfl⟩ := separator
    exact Or.inr (Or.inl ⟨rfl, rfl, cutArguments_comma whole current complete rest⟩)
  by_cases last : c = ')' ∧ inner = 0
  · obtain ⟨rfl, rfl⟩ := last
    exact Or.inr (Or.inr (Or.inl ⟨rfl, rfl, cutArguments_close whole current complete rest⟩))
  by_cases excess : c = '(' ∧ inner + 1 = bracketLimit
  · obtain ⟨rfl, full⟩ := excess
    refine Or.inr (Or.inr (Or.inr ⟨rfl, full, ?_⟩))
    rw [cutArguments_opening, if_pos (by omega)]
  · -- The level after the character is a natural number within the limit.
    have bounds : 0 ≤ inner + level [c] ∧ inner + level [c] < bracketLimit := by
      by_cases opening : c = '('
      · have one : level [c] = 1 := by rw [opening]; rfl
        have room : inner + 1 ≠ bracketLimit := fun full => excess ⟨opening, full⟩
        omega
      · by_cases closing : c = ')'
        · have minusOne : level [c] = -1 := by rw [closing]; rfl
          have open_ : inner ≠ 0 := fun zero => last ⟨closing, zero⟩
          omega
        · have zero := level_singleton opening closing
          omega
    have enclosed : c = ',' → 0 < inner := fun comma =>
      Nat.pos_of_ne_zero fun zero => separator ⟨comma, zero⟩
    have next : ((inner + level [c]).toNat : Int) = inner + level [c] :=
      Int.toNat_of_nonneg bounds.1
    have within : (inner + level [c]).toNat < bracketLimit := by omega
    exact Or.inl ⟨_, next, within, enclosed,
      cutArguments_push whole current complete rest next within enclosed⟩

/-- A scan takes a piece that stays inside into the current argument. -/
theorem cutArguments_append {inner after : Nat} {piece : Text} (inside : Inside inner piece)
    (next : (after : Int) = inner + level piece) :
    cutArguments whole inner current complete (piece ++ rest) =
      cutArguments whole after (piece.reverse ++ current) complete rest := by
  induction piece generalizing inner current with
  | nil =>
    rw [level_nil] at next
    obtain rfl : after = inner := by omega
    rfl
  | cons c piece ih =>
    obtain ⟨-, later⟩ := within_cons.mp inside.within
    obtain ⟨comma, enclosed⟩ := commasAbove_cons.mp inside.enclosed
    have bounds := later [] List.nil_prefix
    rw [level_nil] at bounds
    have next' : ((inner + level [c]).toNat : Int) = inner + level [c] :=
      Int.toNat_of_nonneg (by omega)
    have stays : Inside (inner + level [c]).toNat piece := by
      refine ⟨later.mono (by omega) (by omega), ?_⟩
      rwa [next', Int.neg_add, ← Int.sub_eq_add_neg]
    have step := cutArguments_push whole current complete (piece ++ rest) next' (by omega)
      fun isComma => by have := comma isComma; omega
    rw [level_cons c piece] at next
    rw [List.cons_append, step, ih (c :: current) stays (by omega), List.reverse_cons,
      List.append_assoc]
    rfl

end Step

/-- How the arguments of a call may be followed by its end: by the closing bracket unless the last
argument is empty, or by one more comma if there are arguments. -/
def EndsArguments (arguments : List Text) (ending : Text) : Prop :=
  (ending = [')'] ∧ arguments.getLast? ≠ some []) ∨ (ending = [',', ')'] ∧ arguments ≠ [])

/-- The end of a call after several arguments is that after the later ones. -/
theorem EndsArguments.tail {first ending : Text} {rest : List Text} (more : rest ≠ [])
    (ends : EndsArguments (first :: rest) ending) : EndsArguments rest ending := by
  obtain ⟨second, rest, rfl⟩ := List.exists_cons_of_ne_nil more
  rcases ends with ⟨closed, characters⟩ | ⟨closed, -⟩
  · exact Or.inl ⟨closed, by rwa [List.getLast?_cons_cons] at characters⟩
  · exact Or.inr ⟨closed, more⟩

/-- Arguments that can be cut out are cut out of their text as they are. -/
theorem cutArguments_of_arguments (whole : Text) (complete : List Text) {arguments : List Text}
    {ending : Text} (separable : ∀ argument ∈ arguments, Separable argument)
    (ends : EndsArguments arguments ending) :
    cutArguments whole 0 [] complete (commaSeparated arguments ++ ending) =
      .ok (complete.reverse ++ arguments) := by
  induction arguments generalizing complete with
  | nil =>
    rcases ends with ⟨rfl, -⟩ | ⟨-, nonempty⟩
    · rw [commaSeparated_nil, List.nil_append, cutArguments_close, if_pos rfl, finish, if_pos rfl,
        List.append_nil]
    · exact absurd rfl nonempty
  | cons first rest ih =>
    obtain ⟨inside, balanced⟩ := separable first List.mem_cons_self
    have taken : ∀ later, cutArguments whole 0 [] complete (first ++ later) =
        cutArguments whole 0 first.reverse complete later := by
      intro later
      have next : ((0 : Nat) : Int) = (0 : Nat) + level first := by omega
      rw [cutArguments_append whole [] complete later inside next, List.append_nil]
    cases rest with
    | nil =>
      rw [commaSeparated_singleton, taken]
      rcases ends with ⟨rfl, nonempty⟩ | ⟨rfl, -⟩
      · have characters : first.reverse ≠ [] := by
          intro empty
          exact nonempty (by rw [List.reverse_eq_nil_iff.mp empty]; rfl)
        rw [cutArguments_close, if_pos rfl, finish, if_neg characters, List.reverse_reverse,
          List.reverse_cons]
      · rw [cutArguments_comma, cutArguments_close, if_pos rfl, finish, if_pos rfl,
          List.reverse_reverse, List.reverse_cons]
    | cons second rest =>
      have ends' := ends.tail (List.cons_ne_nil second rest)
      have separable' : ∀ argument ∈ second :: rest, Separable argument :=
        fun argument member => separable argument (List.mem_cons_of_mem _ member)
      rw [commaSeparated_cons first (List.cons_ne_nil second rest), List.append_assoc,
        List.cons_append, taken, cutArguments_comma, ih _ separable' ends', List.reverse_reverse,
        List.reverse_cons, List.append_assoc, List.singleton_append]

/-- The text of the arguments that a scan has read, without its last argument closed. -/
def written (current : Text) (complete : List Text) : Text :=
  complete.reverse.flatMap (· ++ [',']) ++ current.reverse

/-- What holds of a scan with `inner` further brackets open: the current argument can be continued
and those before it can be cut out. -/
structure Scanned (inner : Nat) (current : Text) (complete : List Text) : Prop where
  /-- The current argument stays inside. -/
  inside : Inside 0 current.reverse
  /-- The current argument leaves the further brackets open. -/
  opened : level current.reverse = inner
  /-- The arguments before it are whole. -/
  separable : ∀ argument ∈ complete, Separable argument

/-- Nothing has been read before the first character. -/
theorem Scanned.start : Scanned 0 [] [] where
  inside := ⟨within_nil.mpr (by decide), commasAbove_nil⟩
  opened := rfl
  separable := fun argument member => absurd member List.not_mem_nil

/-- A character that joins the current argument leaves it inside. -/
theorem Scanned.push {inner inner' : Nat} {c : Char} {current : Text} {complete : List Text}
    (scanned : Scanned inner current complete) (next : (inner' : Int) = inner + level [c])
    (shallow : inner < bracketLimit) (shallow' : inner' < bracketLimit)
    (enclosed : c = ',' → 0 < inner) : Scanned inner' (c :: current) complete := by
  obtain ⟨⟨within, commas⟩, opened, separable⟩ := scanned
  refine ⟨⟨?_, ?_⟩, ?_, separable⟩
  · rw [List.reverse_cons, within_append, within_cons, within_nil]
    exact ⟨within, by omega, by omega⟩
  · rw [List.reverse_cons, commasAbove_append, commasAbove_cons]
    exact ⟨commas, fun comma => by have := enclosed comma; omega, commasAbove_nil⟩
  · rw [List.reverse_cons, level_append]
    omega

/-- A comma between arguments completes the current one. -/
theorem Scanned.comma {current : Text} {complete : List Text}
    (scanned : Scanned 0 current complete) : Scanned 0 [] (current.reverse :: complete) where
  inside := Scanned.start.inside
  opened := rfl
  separable := by
    intro argument member
    rcases List.mem_cons.mp member with rfl | earlier
    · exact ⟨scanned.inside, scanned.opened⟩
    · exact scanned.separable argument earlier

/-- A scan that ends has read the arguments of a call up to its closing bracket, and has kept every
character of the text. -/
theorem exists_scanned_of_cutArguments {whole : Text} {inner : Nat} {current : Text}
    {complete : List Text} {text : Text} {arguments : List Text} (shallow : inner < bracketLimit)
    (scanned : Scanned inner current complete)
    (done : cutArguments whole inner current complete text = .ok arguments) :
    ∃ last earlier, Scanned 0 last earlier ∧ arguments = finish last earlier ∧
      written current complete ++ text = written last earlier ++ [')'] := by
  -- Along the text: every step keeps what is written together with the text that is left.
  induction text generalizing inner current complete with
  | nil =>
    rw [cutArguments] at done
    contradiction
  | cons c rest ih =>
    rcases cutArguments_cons whole current complete rest shallow c with
      ⟨inner', next, shallow', enclosed, step⟩ | ⟨rfl, rfl, step⟩ | ⟨rfl, rfl, step⟩ |
        ⟨rfl, -, step⟩
    · rw [step] at done
      obtain ⟨last, earlier, final, result, kept⟩ :=
        ih shallow' (scanned.push next shallow shallow' enclosed) done
      have pushed : written (c :: current) complete = written current complete ++ [c] := by
        rw [written, written, List.reverse_cons, List.append_assoc]
      rw [pushed, List.append_assoc, List.singleton_append] at kept
      exact ⟨last, earlier, final, result, kept⟩
    · rw [step] at done
      obtain ⟨last, earlier, final, result, kept⟩ := ih shallow scanned.comma done
      have separated : written [] (current.reverse :: complete) =
          written current complete ++ [','] := by
        simp only [written, List.reverse_cons, List.flatMap_append, List.flatMap_singleton,
          List.reverse_nil, List.append_nil, List.append_assoc]
      rw [separated, List.append_assoc, List.singleton_append] at kept
      exact ⟨last, earlier, final, result, kept⟩
    · rw [step] at done
      by_cases ended : rest = []
      · rw [if_pos ended] at done
        exact ⟨current, complete, scanned, (Except.ok.inj done).symm, by rw [ended]⟩
      · rw [if_neg ended] at done
        contradiction
    · rw [step] at done
      contradiction

/-- What a scan that ends has read is the text of its arguments, with a comma after it if the last
argument was dropped. -/
theorem written_eq_commaSeparated_finish (current : Text) (complete : List Text) :
    ∃ ending, EndsArguments (finish current complete) ending ∧
      written current complete ++ [')'] =
        commaSeparated (finish current complete) ++ ending := by
  by_cases empty : current = []
  · rw [finish, if_pos empty, written, empty, List.reverse_nil, List.append_nil]
    cases complete with
    | nil => exact ⟨[')'], Or.inl ⟨rfl, by simp⟩, rfl⟩
    | cons last earlier =>
      refine ⟨[',', ')'], Or.inr ⟨rfl, by simp⟩, ?_⟩
      rw [List.reverse_cons, commaSeparated_append_singleton, List.flatMap_append,
        List.flatMap_singleton]
      simp only [List.append_assoc, List.cons_append, List.nil_append]
  · have characters : current.reverse ≠ [] := fun none => empty (List.reverse_eq_nil_iff.mp none)
    rw [finish, if_neg empty, List.reverse_cons]
    refine ⟨[')'], Or.inl ⟨rfl, ?_⟩, ?_⟩
    · rw [List.getLast?_concat]
      exact fun none => characters (Option.some.inj none)
    · rw [commaSeparated_append_singleton, written]

/-- Every argument that a scan has found can be cut out. -/
theorem Scanned.separable_of_mem_finish {current : Text} {complete : List Text}
    (scanned : Scanned 0 current complete) {argument : Text}
    (member : argument ∈ finish current complete) : Separable argument := by
  rcases mem_finish member with earlier | rfl
  · exact scanned.separable argument earlier
  · exact ⟨scanned.inside, scanned.opened⟩

/-- A text is cut into arguments exactly when it is their text with the end of a call, and each of
them can be cut out. -/
theorem cutArguments_eq_ok_iff {whole text : Text} {arguments : List Text} :
    cutArguments whole 0 [] [] text = .ok arguments ↔
      (∀ argument ∈ arguments, Separable argument) ∧
        ∃ ending, EndsArguments arguments ending ∧
          text = commaSeparated arguments ++ ending := by
  constructor
  · intro done
    obtain ⟨last, earlier, scanned, rfl, kept⟩ :=
      exists_scanned_of_cutArguments (by decide) Scanned.start done
    obtain ⟨ending, ends, read⟩ := written_eq_commaSeparated_finish last earlier
    refine ⟨fun argument member => scanned.separable_of_mem_finish member, ending, ends, ?_⟩
    rw [← read, ← kept]
    rfl
  · rintro ⟨separable, ending, ends, rfl⟩
    exact cutArguments_of_arguments whole [] separable ends

/-- The search for the first bracket passes over a text without brackets. -/
theorem not_isBracket_of_plain {text : Text} (plain : Plain text) :
    ∀ c ∈ text, (!isBracket c) = true := by
  intro c member
  obtain ⟨opening, closing⟩ := plain c member
  simp only [isBracket, beq_eq_false_iff_ne.mpr opening, beq_eq_false_iff_ne.mpr closing,
    Bool.or_self, Bool.not_false]

/-- A text is cut in two at its first bracket. -/
theorem span_plain {name : Text} (plain : Plain name) {c : Char} (bracket : isBracket c = true)
    (rest : Text) :
    (name ++ c :: rest).takeWhile (fun c => !isBracket c) = name ∧
      (name ++ c :: rest).dropWhile (fun c => !isBracket c) = c :: rest := by
  have outside := not_isBracket_of_plain plain
  rw [List.takeWhile_append_of_pos outside, List.dropWhile_append_of_pos outside,
    List.takeWhile_cons, List.dropWhile_cons, bracket]
  exact ⟨List.append_nil name, rfl⟩

/-- Texts without brackets that are followed by one are told from what follows. -/
theorem append_opening_inj {name name' rest rest' : Text} (plain : Plain name)
    (plain' : Plain name') (same : name ++ '(' :: rest = name' ++ '(' :: rest') :
    name = name' ∧ rest = rest' := by
  have bracket : isBracket '(' = true := rfl
  obtain ⟨taken, dropped⟩ := span_plain plain bracket rest
  obtain ⟨taken', dropped'⟩ := span_plain plain' bracket rest'
  rw [same] at taken dropped
  exact ⟨taken.symm.trans taken', (List.cons.inj (dropped.symm.trans dropped')).2⟩

/-- A text without brackets is no call. -/
theorem cut_of_plain {text : Text} (plain : Plain text) :
    cut text = .error (.unclosed text 0) := by
  have dropped : text.dropWhile (fun c => !isBracket c) = [] :=
    List.dropWhile_eq_nil_iff.mpr (not_isBracket_of_plain plain)
  rw [cut, dropped]

/-- A text whose first bracket closes is no call. -/
theorem cut_of_closing {name : Text} (plain : Plain name) (rest : Text) :
    cut (name ++ ')' :: rest) = .error (.strayClosing (name ++ ')' :: rest)) := by
  rw [cut, (span_plain plain rfl rest).2]
  dsimp only
  rw [if_pos rfl]

/-- A text whose first bracket opens is cut into what is before the bracket and the arguments after
it. -/
theorem cut_of_opening {name : Text} (plain : Plain name) (rest : Text) :
    cut (name ++ '(' :: rest) =
      (cutArguments (name ++ '(' :: rest) 0 [] [] rest).map (Call.mk name) := by
  obtain ⟨taken, dropped⟩ := span_plain plain (c := '(') rfl rest
  rw [cut, dropped, taken]
  dsimp only
  rw [if_neg (by decide)]
  cases cutArguments (name ++ '(' :: rest) 0 [] [] rest <;> rfl

/-- The call stands in its text with the given ending: the name has no brackets and the arguments
can be cut out. -/
structure WellFormed (call : Call) (ending : Text) : Prop where
  /-- The first bracket is after the name. -/
  plain : Plain call.name
  /-- The arguments concern themselves only. -/
  separable : ∀ argument ∈ call.arguments, Separable argument
  /-- The ending loses no argument. -/
  ends : EndsArguments call.arguments ending

/-- A text is cut into a call exactly when it is the name of the call and, in brackets, the text of
its arguments, where the name has no brackets and each of the arguments can be cut out. -/
theorem cut_eq_ok_iff {text : Text} {call : Call} :
    cut text = .ok call ↔ ∃ ending, call.WellFormed ending ∧
      text = call.name ++ '(' :: (commaSeparated call.arguments ++ ending) := by
  constructor
  · intro done
    rcases plain_or_exists_first_bracket text with plain | ⟨name, rest, plain, rfl | rfl⟩
    · rw [cut_of_plain plain] at done
      contradiction
    · rw [cut_of_opening plain] at done
      cases scan : cutArguments (name ++ '(' :: rest) 0 [] [] rest with
      | error error =>
        rw [scan] at done
        contradiction
      | ok arguments =>
        rw [scan] at done
        obtain rfl := Except.ok.inj done
        obtain ⟨separable, ending, ends, rfl⟩ := cutArguments_eq_ok_iff.mp scan
        exact ⟨ending, ⟨plain, separable, ends⟩, rfl⟩
    · rw [cut_of_closing plain] at done
      contradiction
  · rintro ⟨ending, ⟨plain, separable, ends⟩, rfl⟩
    have scan : ∀ whole, cutArguments whole 0 [] []
        (commaSeparated call.arguments ++ ending) = .ok call.arguments := fun whole =>
      cutArguments_eq_ok_iff.mpr ⟨separable, ending, ends, rfl⟩
    rw [cut_of_opening plain, scan]
    rfl

/-- A scan fails as soon as the text opens more brackets than the limit allows before the call is
closed. -/
theorem cutArguments_tooDeep (whole : Text) {inner : Nat} {current : Text} {complete : List Text}
    {front text : Text} (shallow : inner < bracketLimit) (beginning : front <+: text)
    (opened : ∀ early, early <+: front → 0 ≤ inner + level early)
    (deep : (bracketLimit : Int) ≤ inner + level front) :
    cutArguments whole inner current complete text = .error (.tooDeep bracketLimit) := by
  -- Along the text: the first bracket too many is inside the beginning that has it.
  induction text generalizing inner current complete front with
  | nil =>
    rw [List.prefix_nil.mp beginning, level_nil] at deep
    omega
  | cons c rest ih =>
    rcases List.prefix_cons_iff.mp beginning with rfl | ⟨front, rfl, shorter⟩
    · rw [level_nil] at deep
      omega
    · have later : ∀ early, early <+: front → 0 ≤ inner + (level [c] + level early) := by
        intro early within
        have bound := opened (c :: early) (List.cons_prefix_cons.mpr ⟨rfl, within⟩)
        rwa [level_cons] at bound
      have nonnegative := later [] List.nil_prefix
      rw [level_cons] at deep
      rw [level_nil] at nonnegative
      rcases cutArguments_cons whole current complete rest shallow c with
        ⟨inner', next, shallow', -, step⟩ | ⟨rfl, rfl, step⟩ | ⟨rfl, rfl, -⟩ | ⟨-, -, step⟩
      · rw [step]
        refine ih shallow' shorter (fun early within => ?_) (by omega)
        have bound := later early within
        omega
      · have comma : level [','] = 0 := rfl
        rw [step]
        refine ih shallow shorter (fun early within => ?_) (by omega)
        have bound := later early within
        omega
      · have closing : level [')'] = -1 := rfl
        omega
      · exact step

end Call

end CircuitGrading
