import CircuitGrading.Grading.Session
import CircuitGrading.Proofs.TruthTable

/-!
# Gradings under limits

A run that is not stopped reports what a run without a guard reports (`Grading.run_of_ok`), so a
grader gives the full report or none. If the cancel flag keeps its value during the run, and the
time is over before the first case or lasts for all of them, the outcome is fixed by five questions
in this order: are there too many letters, does the time limit lead beyond the end of the clock, is
the flag set, is the time over, and else what is the report without limits (`Grader.grade_eq`). The
second question has no refusal of its own: the grading panics, even where the flag or the time would
never have stopped it (`Grader.panicked_in_time`). In a session each grading is answered by the
grader with the flag as it then is (`Grader.getElem?_serve`).
-/

namespace CircuitGrading

namespace Grading

variable {ε : Type} {guard : Nat → Except ε Unit} {submission reference : Circuit}

/-- There is a first case. -/
theorem caseCount_pos (reference : Circuit) : 0 < caseCount reference :=
  Nat.two_pow_pos _

/-- A run that ends with a report goes as without its guard. -/
theorem runFrom_of_ok {order : List Letter} {remaining number : Nat} {assignment : Assignment}
    {tally : Tally} {report : Report}
    (done : runFrom guard submission reference order remaining number assignment tally =
      .ok report) :
    runFrom (fun _ => (.ok () : Except Empty Unit)) submission reference order remaining number
      assignment tally = .ok report := by
  induction remaining generalizing number assignment tally with
  | zero =>
    obtain rfl := Except.ok.inj done
    rfl
  | succ remaining ih =>
    rw [runFrom] at done ⊢
    cases passed : guard number with
    | error stop =>
      rw [passed] at done
      contradiction
    | ok =>
      simp only [passed] at done ⊢
      split at done
      · rename_i final
        rw [if_pos final]
        obtain rfl := Except.ok.inj done
        rfl
      · rename_i more
        rw [if_neg more]
        exact ih done

/-- A run that ends with a report ends with the report of a run without a guard. -/
theorem run_of_ok {report : Report} (done : run guard submission reference = .ok report) :
    report = grade submission reference := by
  have unguarded := runFrom_of_ok done
  rw [grade, run, unguarded]

/-- A run whose guard passes all cases ends with the report of a run without a guard. -/
theorem run_of_passes (passes : ∀ number < caseCount reference, guard number = .ok ()) :
    run guard submission reference = .ok (grade submission reference) := by
  rw [run_eq passes, grade_eq]

/-- A run whose guard stops the first case ends with the error of the guard. -/
theorem run_of_stopped {error : ε} (stops : guard 0 = .error error) :
    run guard submission reference = .error error := by
  obtain ⟨later, total⟩ : ∃ later, caseCount reference = later + 1 :=
    Nat.exists_eq_succ_of_ne_zero (caseCount_pos reference).ne'
  rw [run, total, runFrom, stops]

end Grading

namespace Grader

open Grading

/-- When the time of a run ends, if there is a time limit, in nanoseconds since the clock has
started. -/
def timeEnd? (grader : Grader) (clock : Clock) : Option Nat :=
  grader.limits.timeBudget.map fun budget => clock.start.nanoseconds + budget.nanoseconds

/-- The time is over before the first case. -/
def Expired (grader : Grader) (clock : Clock) : Prop :=
  ∃ ending ∈ grader.timeEnd? clock, ending ≤ (clock.looks 0).nanoseconds

/-- The time is not over at any look at the clock before a case. -/
def InTime (grader : Grader) (clock : Clock) (cases : Nat) : Prop :=
  ∀ ending ∈ grader.timeEnd? clock, ∀ completed < cases, completed % checkPeriod = 0 →
    (clock.looks completed).nanoseconds < ending

/-- The time ends after the clock. -/
def Overlong (grader : Grader) (clock : Clock) : Prop :=
  ∃ ending ∈ grader.timeEnd? clock, Instant.limit ≤ ending

section Deadline

variable {grader : Grader} {clock : Clock}

/-- There is no deadline to set exactly if the time ends after the clock. -/
theorem deadline?_eq_none_iff :
    grader.limits.deadline? clock.start = none ↔ grader.Overlong clock := by
  rw [Overlong, timeEnd?, Limits.deadline?]
  cases grader.limits.timeBudget with
  | none => simp
  | some budget =>
    rw [Option.map_eq_none_iff, Instant.add?_eq_none_iff]
    constructor
    · intro late
      exact ⟨_, rfl, late⟩
    · rintro ⟨ending, ends, late⟩
      exact Nat.le_trans late (Nat.le_of_eq (Option.some.inj ends).symm)

/-- The deadline is when the time ends. -/
theorem map_nanoseconds_of_deadline? {deadline : Option Instant}
    (set : grader.limits.deadline? clock.start = some deadline) :
    deadline.map Instant.nanoseconds = grader.timeEnd? clock := by
  rw [Limits.deadline?] at set
  rw [timeEnd?]
  cases limited : grader.limits.timeBudget with
  | none =>
    rw [limited] at set
    rw [← Option.some.inj set]
    rfl
  | some budget =>
    rw [limited] at set
    obtain ⟨instant, added, rfl⟩ := Option.map_eq_some_iff.mp set
    rw [Option.map_some, Option.map_some, Instant.add?_eq_some_iff.mp added]

/-- A time that is over ends before the clock. -/
theorem Expired.not_overlong (expired : grader.Expired clock) : ¬grader.Overlong clock := by
  rintro ⟨ending, ends, late⟩
  obtain ⟨ending', ends', passed⟩ := expired
  obtain rfl := Option.mem_unique ends ends'
  exact Nat.not_lt_of_le (Nat.le_trans late passed) (clock.looks 0).inRange

/-- A time that ends after the clock is not over at any look at the clock. -/
theorem Overlong.inTime (overlong : grader.Overlong clock) (cases : Nat) :
    grader.InTime clock cases := by
  intro ending ends completed _ _
  obtain ⟨ending', ends', late⟩ := overlong
  obtain rfl := Option.mem_unique ends ends'
  exact Nat.lt_of_lt_of_le (clock.looks completed).inRange late

end Deadline

section Check

variable {grader : Grader} {clock : Clock} {deadline : Option Instant}

/-- A set cancel flag stops the first case, whatever the deadline. -/
theorem check_of_cancelled (cancelled : grader.cancelFlag = some true) (total : Nat) :
    grader.check deadline clock.looks total 0 = .error (.cancelled 0 total) := by
  unfold check
  rw [if_neg (by decide), if_pos cancelled]

/-- Without a set cancel flag, the first case is stopped if the time is over. -/
theorem check_of_expired (running : grader.cancelFlag ≠ some true)
    (set : grader.limits.deadline? clock.start = some deadline)
    (expired : grader.Expired clock) (total : Nat) :
    grader.check deadline clock.looks total 0 = .error (.outOfTime 0 total) := by
  obtain ⟨ending, ends, passed⟩ := expired
  rw [← map_nanoseconds_of_deadline? set] at ends
  obtain ⟨instant, rfl, rfl⟩ := Option.map_eq_some_iff.mp ends
  have past : instant ≤ clock.looks 0 := passed
  unfold check
  rw [if_neg (by decide), if_neg running]
  exact if_pos past

/-- Without a set cancel flag, a case passes if the time is not over. -/
theorem check_of_inTime {cases : Nat} (running : grader.cancelFlag ≠ some true)
    (set : grader.limits.deadline? clock.start = some deadline)
    (inTime : grader.InTime clock cases) (total : Nat) {completed : Nat}
    (inside : completed < cases) :
    grader.check deadline clock.looks total completed = .ok () := by
  unfold check
  by_cases looked : completed % checkPeriod = 0
  · rw [if_neg (not_not.mpr looked), if_neg running]
    cases deadline with
    | none => rfl
    | some instant =>
      have ends : instant.nanoseconds ∈ grader.timeEnd? clock :=
        (map_nanoseconds_of_deadline? set).symm
      have early := inTime _ ends completed inside looked
      have ahead : ¬instant ≤ clock.looks completed := Nat.not_le_of_lt early
      exact if_neg ahead
  · rw [if_pos looked]

end Check

variable (grader : Grader) {clock : Clock} (submission reference : Circuit)

/-- A grader that gives a report gives the report without limits, whatever the clock. -/
theorem grade_of_ok {grader : Grader} {submission reference : Circuit} {report : Report}
    (done : grader.grade clock submission reference = .returned (.ok report)) :
    report = CircuitGrading.grade submission reference := by
  rw [Grader.grade] at done
  split at done
  · cases done
  · split at done
    · contradiction
    · exact run_of_ok (Answer.returned.inj done)

/-- A grading whose time ends after the clock panics, unless the reference has too many letters. -/
theorem grade_of_overlong {grader : Grader}
    (few : reference.letterCount ≤ grader.limits.maxLetters) (overlong : grader.Overlong clock) :
    grader.grade clock submission reference = .panicked := by
  rw [Grader.grade, if_neg (Nat.not_lt_of_le few), deadline?_eq_none_iff.mpr overlong]

open Classical in
/-- The outcome of a grading whose time is over before the first case or lasts for all cases. -/
theorem grade_eq
    (time : grader.Expired clock ∨ grader.InTime clock (caseCount reference)) :
    grader.grade clock submission reference =
      if grader.limits.maxLetters < reference.letterCount then
        .returned (.error (.tooManyLetters reference.letterCount grader.limits.maxLetters))
      else if grader.Overlong clock then .panicked
      else if grader.cancelFlag = some true then
        .returned (.error (.cancelled 0 (caseCount reference)))
      else if grader.Expired clock then .returned (.error (.outOfTime 0 (caseCount reference)))
      else .returned (.ok (CircuitGrading.grade submission reference)) := by
  by_cases many : grader.limits.maxLetters < reference.letterCount
  · rw [Grader.grade, if_pos many, if_pos many]
  rw [if_neg many]
  by_cases overlong : grader.Overlong clock
  · rw [if_pos overlong, grade_of_overlong submission reference (Nat.le_of_not_lt many) overlong]
  rw [if_neg overlong]
  obtain ⟨deadline, set⟩ : ∃ deadline, grader.limits.deadline? clock.start = some deadline :=
    Option.ne_none_iff_exists'.mp (mt deadline?_eq_none_iff.mp overlong)
  rw [Grader.grade, if_neg many, set]
  dsimp only
  split_ifs with cancelled expired
  · exact congrArg Answer.returned (run_of_stopped (check_of_cancelled cancelled _))
  · exact congrArg Answer.returned (run_of_stopped (check_of_expired cancelled set expired _))
  · have inTime := time.resolve_left expired
    exact congrArg Answer.returned
      (run_of_passes fun number inside => check_of_inTime cancelled set inTime _ inside)

/-- A grader without a flag and without a time limit that allows all letters refuses nothing. -/
theorem grade_unrestricted (clock : Clock) :
    (Grader.mk Limits.unrestricted none).grade clock submission reference =
      .returned (.ok (CircuitGrading.grade submission reference)) := by
  have endless : ∀ ending, ending ∉ (Grader.mk Limits.unrestricted none).timeEnd? clock :=
    fun _ => Option.not_mem_none _
  have inTime : (Grader.mk Limits.unrestricted none).InTime clock (caseCount reference) :=
    fun ending ends => absurd ends (endless ending)
  have allowed : ¬Limits.unrestricted.maxLetters < reference.letterCount :=
    Nat.not_lt_of_le reference.letterCount_le
  have clear : ¬(Grader.mk Limits.unrestricted none).Overlong clock :=
    fun ⟨ending, ends, _⟩ => endless ending ends
  have fresh : ¬(Grader.mk Limits.unrestricted none).Expired clock :=
    fun ⟨ending, ends, _⟩ => endless ending ends
  rw [grade_eq _ _ _ (Or.inr inTime), if_neg allowed, if_neg clear, if_neg (by simp), if_neg fresh]

/-- A request leaves the limits alone and stores at most one value in the flag. -/
theorem after_eq (request : Request) :
    grader.after request = ⟨grader.limits, grader.flagAfter [request]⟩ := by
  cases request with
  | grade clock submission reference =>
    rw [after, flagAfter]
    exact congrArg (Grader.mk grader.limits) Option.map_id'.symm
  | setCancel value => rfl

/-- The flag after requests is known from the flag after the first one. -/
theorem flagAfter_cons (request : Request) (rest : List Request) :
    grader.flagAfter (request :: rest) = (grader.after request).flagAfter rest := by
  cases request with
  | grade clock submission reference => rfl
  | setCancel value =>
    simp only [flagAfter, after, setCancel, Option.map_map, List.filterMap_cons, Request.stored?,
      List.getLast?_cons, Option.getD_some]
    rfl

/-- In a session each request is answered by the grader with the flag as it then is. -/
theorem getElem?_serve (requests : List Request) (place : Nat) :
    (grader.serve requests)[place]? = requests[place]?.map
      (Grader.mk grader.limits (grader.flagAfter (requests.take place))).answer? := by
  induction requests generalizing grader place with
  | nil => rfl
  | cons request rest ih =>
    cases place with
    | zero =>
      have unchanged : Grader.mk grader.limits (grader.flagAfter []) = grader :=
        congrArg (Grader.mk grader.limits) Option.map_id'
      rw [List.take_zero, unchanged]
      rfl
    | succ place =>
      have later := ih (grader.after request) place
      rw [← flagAfter_cons] at later
      rw [serve, List.getElem?_cons_succ, List.getElem?_cons_succ, List.take_succ_cons, later,
        after_eq]

/-- A grader refuses in a fixed order and otherwise reports what a grading without limits reports.
Let the flag keep its value, and let the time be over before the first case or last for all cases.
Then a reference with too many letters is refused whatever else holds. Else the grading panics
exactly if the time ends after the clock. Else a set flag stops the run before the first case,
whatever the time; else a time that is over does; else the report is the one without limits. No
report is ever a partial one, an unrestricted grader refuses nothing, and in a session each grading
is answered as by a new grader with the flag as it then is. -/
theorem refusals_in_order :
    (∀ clock submission reference,
      grader.Expired clock ∨ grader.InTime clock (caseCount reference) →
      let answer := grader.grade clock submission reference
      let found := reference.letterCount
      let limit := grader.limits.maxLetters
      (answer = .returned (.error (.tooManyLetters found limit)) ↔ limit < found) ∧
      (found ≤ limit → (answer = .panicked ↔ grader.Overlong clock)) ∧
      (found ≤ limit → ¬grader.Overlong clock →
        (answer = .returned (.error (.cancelled 0 (2 ^ found))) ↔
          grader.cancelFlag = some true) ∧
        (grader.cancelFlag ≠ some true →
          (answer = .returned (.error (.outOfTime 0 (2 ^ found))) ↔ grader.Expired clock)) ∧
        (grader.cancelFlag ≠ some true → ¬grader.Expired clock →
          answer = .returned (.ok (CircuitGrading.grade submission reference))))) ∧
    (∀ clock submission reference report,
      grader.grade clock submission reference = .returned (.ok report) →
        report = CircuitGrading.grade submission reference) ∧
    (∀ clock submission reference,
      (Grader.mk Limits.unrestricted none).grade clock submission reference =
        .returned (.ok (CircuitGrading.grade submission reference))) ∧
    ∀ requests place clock submission reference,
      requests[place]? = some (Request.grade clock submission reference) →
        let flag := grader.flagAfter (requests.take place)
        (grader.serve requests)[place]? =
          some (some ((Grader.mk grader.limits flag).grade clock submission reference)) := by
  classical
  refine ⟨fun clock submission reference time => ?_, fun _ _ _ _ => grade_of_ok,
    fun clock submission reference => grade_unrestricted submission reference clock, ?_⟩
  · intro answer found limit
    have total : caseCount reference = 2 ^ found := rfl
    have outcome : answer = _ := grader.grade_eq submission reference time
    rw [total] at outcome
    refine ⟨?_, fun few => ?_, fun few ends => ⟨?_, fun running => ?_, fun running fresh => ?_⟩⟩
    · rw [outcome]
      split_ifs with many overlong cancelled expired <;> simp [many, found, limit]
    · rw [outcome, if_neg (Nat.not_lt_of_le few)]
      split_ifs with overlong cancelled expired <;> simp [overlong]
    · rw [outcome, if_neg (Nat.not_lt_of_le few), if_neg ends]
      split_ifs with cancelled expired <;> simp [cancelled]
    · rw [outcome, if_neg (Nat.not_lt_of_le few), if_neg ends, if_neg running]
      split_ifs with expired <;> simp [expired]
    · rw [outcome, if_neg (Nat.not_lt_of_le few), if_neg ends, if_neg running, if_neg fresh]
  · intro requests place clock submission reference asked flag
    rw [getElem?_serve, asked]
    rfl

/-- One grader and a reference of nine letters on two clocks. The first clock passes the time limit
of 300 nanoseconds after the second and last look at it, before case 256, and all cases are done;
the second clock starts at the limit. -/
theorem refusals_in_order_at_time_limit :
    let reference := (Letter.all.take 8).foldl
      (fun circuit letter => Circuit.binary .xor circuit (.input letter)) (.input ⟨25⟩)
    let grader : Grader := ⟨⟨9, some ⟨0, 300, by decide⟩⟩, some false⟩
    let before : Instant := ⟨1299, by decide⟩
    let after : Instant := ⟨1300, by decide⟩
    let start : Instant := ⟨1000, by decide⟩
    let first : Clock := ⟨start, fun completed => if completed ≤ 256 then before else after⟩
    let second : Clock := ⟨start, fun _ => after⟩
    let report := CircuitGrading.grade reference reference
    grader.InTime first (caseCount reference) ∧
      grader.grade first reference reference = .returned (.ok report) ∧
      report.correct.toNat = 512 ∧ report.log.length = 512 ∧
      grader.Expired second ∧
      grader.grade second reference reference = .returned (.error (.outOfTime 0 512)) := by
  intro reference grader before after start first second report
  have nine : reference.letterCount = 9 := by decide
  have cases : caseCount reference = 512 := congrArg (Nat.pow 2) nine
  have inTime : grader.InTime first (caseCount reference) := by
    intro ending ends completed inside looked
    obtain rfl := Option.some.inj ends
    rw [cases] at inside
    rw [checkPeriod] at looked
    have early : completed ≤ 256 := by omega
    have shown : first.looks completed = before := if_pos early
    rw [shown]
    decide
  have expired : grader.Expired second := ⟨1300, rfl, Nat.le_refl 1300⟩
  have clear : ¬grader.Overlong first := by
    rintro ⟨ending, ends, late⟩
    obtain rfl := Option.some.inj ends
    exact absurd late (by decide)
  have few : reference.letterCount ≤ grader.limits.maxLetters := nine.le
  have running : grader.cancelFlag ≠ some true := by decide
  have fresh : ¬grader.Expired first := by
    rintro ⟨ending, ends, passed⟩
    exact Nat.not_lt_of_le passed (inTime ending ends 0 (caseCount_pos reference) rfl)
  have correct : report.correct.toNat = 512 := by
    rw [correct_grade_of_subset (List.Subset.refl _)]
    simp only [beq_self_eq_true, List.countP_true, List.length_range, cases]
  have length : report.log.length = 512 := by
    rw [log_grade, List.length_map, List.length_range, cases]
  obtain ⟨-, -, reported⟩ :=
    grader.refusals_in_order.1 first reference reference (Or.inr inTime)
  obtain ⟨-, -, stopped⟩ :=
    grader.refusals_in_order.1 second reference reference (Or.inl expired)
  have refused := ((stopped few expired.not_overlong).2.1 running).mpr expired
  rw [nine] at refused
  exact ⟨inTime, (reported few clear).2.2 running fresh, correct, length, expired, refused⟩

/-- With the longest time limit, which is never over, a letter is not graded against itself, and a
set cancel flag does not stop the grading: both calls panic. -/
theorem panicked_in_time :
    let letter := Circuit.input ⟨0⟩
    let limits := Limits.unrestricted.within .longest
    let clock : Clock := ⟨⟨0, by decide⟩, fun _ => ⟨0, by decide⟩⟩
    letter.letterCount ≤ limits.maxLetters ∧
      (∀ flag, (Grader.mk limits flag).InTime clock (caseCount letter)) ∧
      (Grader.mk limits none).grade clock letter letter = .panicked ∧
      (Grader.mk limits (some true)).grade clock letter letter = .panicked := by
  intro letter limits clock
  have late : Instant.limit ≤ Duration.longest.nanoseconds := by decide
  have overlong : ∀ flag, (Grader.mk limits flag).Overlong clock := fun flag =>
    ⟨_, rfl, Nat.le_trans late (Nat.le_add_left _ clock.start.nanoseconds)⟩
  have few : letter.letterCount ≤ limits.maxLetters := letter.letterCount_le
  have inTime := fun flag => (overlong flag).inTime (caseCount letter)
  have panics : ∀ flag, (Grader.mk limits flag).grade clock letter letter = .panicked := fun flag =>
    grade_of_overlong letter letter few (overlong flag)
  exact ⟨few, inTime, panics none, panics (some true)⟩

end Grader

end CircuitGrading
