import CircuitGrading.Proofs.Enumeration

/-!
# Loading numbers

A number that is loaded over letters is read with its most significant digit first: a letter takes
the digit of its last place in the list (`Letter.numbered_of_last`), no other letter is touched, and
digits for which the list has no place are not looked at (`loadNumber_congr`). Over letters that are
all different, two numbers part at the first letter whose digits differ, and the smaller number has
the false value there (`Letter.exists_first_difference`). So counting upwards goes through all
valuations of the letters, each once and in lexicographic order (`loading_enumerates_valuations`).
-/

namespace CircuitGrading

namespace Letter

/-- A letter has the digit that as many digits follow as places come after its last one. -/
theorem numbered_of_last (front : List Letter) {letter : Letter} {rest : List Letter}
    (last : letter ∉ rest) (number : Nat) :
    numbered (front ++ letter :: rest) number letter = number.testBit rest.length := by
  induction front with
  | nil => exact numbered_cons_self number last
  | cons first front ih =>
    have later : letter ∈ front ++ letter :: rest := List.mem_append_cons_self
    rw [List.cons_append, numbered_cons_of_mem first number later, ih]

/-- Two numbers whose lowest digits differ part at a first letter; the one that is smaller in these
digits makes the letter false and the other one makes it true. -/
theorem exists_first_difference_of_mod_lt {order : List Letter} (distinct : order.Nodup)
    {low high : Nat}
    (less : low % 2 ^ order.length < high % 2 ^ order.length) :
    ∃ front letter rest, order = front ++ letter :: rest ∧
      (∀ earlier ∈ front, numbered order low earlier = numbered order high earlier) ∧
      numbered order low letter = false ∧ numbered order high letter = true := by
  induction order with
  | nil =>
    rw [List.length_nil, Nat.pow_zero, Nat.mod_one, Nat.mod_one] at less
    exact absurd less (Nat.lt_irrefl 0)
  | cons first rest ih =>
    obtain ⟨single, distinct⟩ := List.nodup_cons.mp distinct
    have top : ∀ number : Nat, number % 2 ^ (first :: rest).length =
        number % 2 ^ rest.length + 2 ^ rest.length * (number.testBit rest.length).toNat := by
      intro number
      rw [List.length_cons, Nat.mod_pow_succ, Nat.toNat_testBit]
    rw [top, top] at less
    have lowHead := numbered_cons_self low single
    have highHead := numbered_cons_self high single
    by_cases same : low.testBit rest.length = high.testBit rest.length
    · have less' : low % 2 ^ rest.length < high % 2 ^ rest.length := by
        rw [same] at less
        omega
      obtain ⟨front, letter, rest', split, alike, lowValue, highValue⟩ := ih distinct less'
      have listed : ∀ earlier ∈ front, earlier ∈ rest := by
        intro earlier member
        rw [split]
        exact List.mem_append_left _ member
      have found : letter ∈ rest := by
        rw [split]
        exact List.mem_append_cons_self
      refine ⟨first :: front, letter, rest', by rw [split, List.cons_append], ?_, ?_, ?_⟩
      · intro earlier member
        rcases List.mem_cons.mp member with rfl | later
        · rw [lowHead, highHead, same]
        · rw [numbered_cons_of_mem first low (listed earlier later),
            numbered_cons_of_mem first high (listed earlier later), alike earlier later]
      · rw [numbered_cons_of_mem first low found, lowValue]
      · rw [numbered_cons_of_mem first high found, highValue]
    · -- The most significant digits differ, and so the larger number has the true one.
      refine ⟨[], first, rest, rfl, fun _ member => absurd member List.not_mem_nil, ?_⟩
      rw [lowHead, highHead]
      have lowBound := Nat.mod_lt low (Nat.two_pow_pos rest.length)
      have highBound := Nat.mod_lt high (Nat.two_pow_pos rest.length)
      cases lowDigit : low.testBit rest.length with
      | false =>
        cases highDigit : high.testBit rest.length with
        | false => exact absurd (lowDigit.trans highDigit.symm) same
        | true => exact ⟨rfl, rfl⟩
      | true =>
        cases highDigit : high.testBit rest.length with
        | false =>
          rw [lowDigit, highDigit, Bool.toNat_true, Bool.toNat_false] at less
          omega
        | true => exact absurd (lowDigit.trans highDigit.symm) same

/-- Two numbers with as many digits as there are letters part at a first letter; the smaller one
makes it false and the larger one makes it true. -/
theorem exists_first_difference {order : List Letter} (distinct : order.Nodup) {low high : Nat}
    (less : low < high) (below : high < 2 ^ order.length) :
    ∃ front letter rest, order = front ++ letter :: rest ∧
      (∀ earlier ∈ front, numbered order low earlier = numbered order high earlier) ∧
      numbered order low letter = false ∧ numbered order high letter = true := by
  have below' : low < 2 ^ order.length := Nat.lt_trans less below
  apply exists_first_difference_of_mod_lt distinct
  rwa [Nat.mod_eq_of_lt below', Nat.mod_eq_of_lt below]

/-- Numbers with as many digits as there are letters are the same if they give the letters the same
values. -/
theorem eq_of_numbered_eq {order : List Letter} (distinct : order.Nodup) {number number' : Nat}
    (inside : number < 2 ^ order.length) (inside' : number' < 2 ^ order.length)
    (same : ∀ letter ∈ order, numbered order number letter = numbered order number' letter) :
    number = number' := by
  have noDifference : ∀ low high : Nat, low < high → high < 2 ^ order.length →
      ∃ letter ∈ order, numbered order low letter ≠ numbered order high letter := by
    intro low high less below
    obtain ⟨front, letter, rest, split, -, lowValue, highValue⟩ :=
      exists_first_difference distinct less below
    refine ⟨letter, ?_, ?_⟩
    · rw [split]
      exact List.mem_append_cons_self
    · rw [lowValue, highValue]
      exact Bool.false_ne_true
  rcases Nat.lt_trichotomy number number' with less | equal | greater
  · obtain ⟨letter, listed, differ⟩ := noDifference number number' less inside'
    exact absurd (same letter listed) differ
  · exact equal
  · obtain ⟨letter, listed, differ⟩ := noDifference number' number greater inside
    exact absurd (same letter listed).symm differ

end Letter

namespace Assignment

variable (assignment : Assignment) {order : List Letter}

/-- Only as many digits of a number are looked at as there are letters. -/
theorem loadNumber_congr {number number' : UInt64}
    (same : ∀ place < order.length, number.toNat.testBit place = number'.toNat.testBit place) :
    assignment.loadNumber order number = assignment.loadNumber order number' := by
  induction order generalizing assignment with
  | nil => rfl
  | cons first rest ih =>
    have head := same rest.length (by rw [List.length_cons]; omega)
    have later := ih (assignment.assign first (number'.toNat.testBit rest.length))
      fun place below => same place (by rw [List.length_cons]; omega)
    rw [loadNumber, loadNumber, head, later]

/-- The assignment after numbers are loaded over the same letters in turn. -/
def loadAll (order : List Letter) (numbers : List UInt64) : Assignment :=
  numbers.foldl (fun assignment number => assignment.loadNumber order number) assignment

/-- No number that is loaded over letters touches another letter. -/
theorem value?_loadAll_of_not_mem {letter : Letter} (unlisted : letter ∉ order)
    (numbers : List UInt64) :
    (assignment.loadAll order numbers).value? letter = assignment.value? letter := by
  induction numbers generalizing assignment with
  | nil => rfl
  | cons number rest ih =>
    have step : assignment.loadAll order (number :: rest) =
        (assignment.loadNumber order number).loadAll order rest := rfl
    rw [step, ih, value?_loadNumber, if_neg unlisted]

/-- A number that is loaded last leaves nothing of those that were loaded over the same letters
before. -/
theorem value?_loadNumber_loadAll (numbers : List UInt64) (number : UInt64) (letter : Letter) :
    ((assignment.loadAll order numbers).loadNumber order number).value? letter =
      (assignment.loadNumber order number).value? letter := by
  rw [value?_loadNumber, value?_loadNumber]
  by_cases listed : letter ∈ order
  · rw [if_pos listed, if_pos listed]
  · rw [if_neg listed, if_neg listed, value?_loadAll_of_not_mem assignment listed]

section Word

variable (fits : order.length ≤ 64)

include fits

/-- A letter of the list has the digit of the word that its last place stands for, counted from the
end of the list. -/
theorem value?_loadNumber_of_last (number : UInt64) {front rest : List Letter} {letter : Letter}
    (split : order = front ++ letter :: rest) (last : letter ∉ rest) :
    (assignment.loadNumber order number).value? letter =
      some number.toBitVec[order.length - 1 - front.length] := by
  have listed : letter ∈ order := by
    rw [split]
    exact List.mem_append_cons_self
  have place : order.length - 1 - front.length = rest.length := by
    rw [split, List.length_append, List.length_cons]
    omega
  have digit : Letter.numbered order number.toNat letter = number.toNat.testBit rest.length := by
    rw [split, Letter.numbered_of_last front last]
  rw [value?_loadNumber, if_pos listed, digit]
  simp only [place, BitVec.getElem_eq_testBit_toNat, UInt64.toNat_toBitVec]

/-- Words with the same digits for the places of the list leave the same assignment. -/
theorem loadNumber_congr_word {number number' : UInt64}
    (same : ∀ place, (below : place < order.length) →
      number.toBitVec[place] = number'.toBitVec[place]) :
    assignment.loadNumber order number = assignment.loadNumber order number' := by
  apply loadNumber_congr
  intro place below
  have digit := same place below
  simpa only [BitVec.getElem_eq_testBit_toNat, UInt64.toNat_toBitVec] using digit

/-- A number with as many digits as there are letters fits into a word and gives the letters its
digits. -/
theorem value?_loadNumber_ofNat {number : Nat} (inside : number < 2 ^ order.length)
    {letter : Letter}
    (listed : letter ∈ order) :
    (assignment.loadNumber order (UInt64.ofNat number)).value? letter =
      some (Letter.numbered order number letter) := by
  have words : 2 ^ order.length ≤ UInt64.size := Nat.pow_le_pow_right (by decide) fits
  rw [value?_loadNumber, if_pos listed,
    UInt64.toNat_ofNat_of_lt' (Nat.lt_of_lt_of_le inside words)]

variable (distinct : order.Nodup)

include distinct

/-- Every valuation of different letters is left by one number, and by no other. -/
theorem existsUnique_number (valuation : Letter → Bool) :
    ∃! number, number < 2 ^ order.length ∧ ∀ letter ∈ order,
      (assignment.loadNumber order (UInt64.ofNat number)).value? letter =
        some (valuation letter) := by
  obtain ⟨number, inside, values⟩ := Letter.exists_numbered_eq order valuation
  refine ⟨number, ⟨inside, fun letter listed => ?_⟩, ?_⟩
  · rw [assignment.value?_loadNumber_ofNat fits inside listed, values letter listed]
  · rintro number' ⟨inside', values'⟩
    apply Letter.eq_of_numbered_eq distinct inside' inside
    intro letter listed
    have value := values' letter listed
    rw [assignment.value?_loadNumber_ofNat fits inside' listed] at value
    rw [values letter listed, Option.some.inj value]

/-- The larger of two numbers leaves different letters the later valuation. -/
theorem loadNumber_lexicographic {low high : Nat} (less : low < high)
    (inside : high < 2 ^ order.length) :
    let loaded := fun number : Nat => assignment.loadNumber order (UInt64.ofNat number)
    ∃ front letter rest, order = front ++ letter :: rest ∧
      (∀ earlier ∈ front, (loaded low).value? earlier = (loaded high).value? earlier) ∧
      (loaded low).value? letter = some false ∧ (loaded high).value? letter = some true := by
  intro loaded
  have lowValues : ∀ letter ∈ order,
      (loaded low).value? letter = some (Letter.numbered order low letter) :=
    fun letter => assignment.value?_loadNumber_ofNat fits (Nat.lt_trans less inside)
  have highValues : ∀ letter ∈ order,
      (loaded high).value? letter = some (Letter.numbered order high letter) :=
    fun letter => assignment.value?_loadNumber_ofNat fits inside
  obtain ⟨front, letter, rest, split, alike, lowValue, highValue⟩ :=
    Letter.exists_first_difference distinct less inside
  have listed : letter ∈ order := by
    rw [split]
    exact List.mem_append_cons_self
  refine ⟨front, letter, rest, split, fun earlier member => ?_, ?_, ?_⟩
  · have listed' : earlier ∈ order := by
      rw [split]
      exact List.mem_append_left _ member
    rw [lowValues earlier listed', highValues earlier listed', alike earlier member]
  · rw [lowValues letter listed, lowValue]
  · rw [highValues letter listed, highValue]

end Word

/-- A number that is loaded over letters is read with its most significant digit first. A letter of
the list takes the digit of its last place, counted from the end of the list; every other letter is
as before; and numbers with the same digits for the places of the list leave the same assignment. If
the letters are all different, every valuation of them is left by exactly one number with as many
digits, the larger of two such numbers leaves the later valuation in lexicographic order, and what
was loaded over the same letters before does not matter. -/
theorem loading_enumerates_valuations (fits : order.length ≤ 64) :
    (∀ number : UInt64,
      let loaded := assignment.loadNumber order number
      (∀ front letter rest, order = front ++ letter :: rest → letter ∉ rest →
        loaded.value? letter = some number.toBitVec[order.length - 1 - front.length]) ∧
      (∀ letter, letter ∉ order → loaded.value? letter = assignment.value? letter) ∧
      (∀ number' : UInt64,
        (∀ place, (below : place < order.length) →
          number.toBitVec[place] = number'.toBitVec[place]) →
        loaded = assignment.loadNumber order number')) ∧
    (order.Nodup →
      let loaded := fun number : Nat => assignment.loadNumber order (UInt64.ofNat number)
      (∀ valuation : Letter → Bool, ∃! number, number < 2 ^ order.length ∧
        ∀ letter ∈ order, (loaded number).value? letter = some (valuation letter)) ∧
      (∀ low high, low < high → high < 2 ^ order.length →
        ∃ front letter rest, order = front ++ letter :: rest ∧
          (∀ earlier ∈ front, (loaded low).value? earlier = (loaded high).value? earlier) ∧
          (loaded low).value? letter = some false ∧ (loaded high).value? letter = some true) ∧
      ∀ (numbers : List UInt64) (number : UInt64) (letter : Letter),
        ((assignment.loadAll order numbers).loadNumber order number).value? letter =
          (assignment.loadNumber order number).value? letter) := by
  refine ⟨fun number => ⟨?_, ?_, ?_⟩, fun distinct => ⟨?_, ?_, ?_⟩⟩
  · intro front letter rest split last
    exact assignment.value?_loadNumber_of_last fits number split last
  · intro letter unlisted
    rw [value?_loadNumber, if_neg unlisted]
  · intro number' same
    exact assignment.loadNumber_congr_word fits same
  · exact assignment.existsUnique_number fits distinct
  · intro low high less inside
    exact assignment.loadNumber_lexicographic fits distinct less inside
  · exact assignment.value?_loadNumber_loadAll

/-- Of the letter that comes twice the second place counts, and the fourth digit of a number has
none. -/
theorem loading_enumerates_valuations_repeated :
    let a : Letter := ⟨0⟩
    let b : Letter := ⟨1⟩
    let loaded := empty.loadNumber [b, a, b] 6
    [b, a, b].length ≤ 64 ∧ [b, a].length ≤ 64 ∧ [b, a].Nodup ∧
      loaded.value? b = some false ∧ loaded.value? a = some true ∧ loaded.value? ⟨2⟩ = none ∧
      loaded = empty.loadNumber [b, a, b] 14 ∧
      (∃! number, number < 2 ^ 2 ∧ ∀ letter ∈ [b, a],
        (loaded.loadNumber [b, a] (UInt64.ofNat number)).value? letter = some (letter == b)) ∧
      ((loaded.loadAll [b, a] [1, 2]).loadNumber [b, a] 3).value? a =
        (loaded.loadNumber [b, a] 3).value? a := by
  have lowest : (UInt64.toBitVec 6)[0] = false := by decide
  have second : (UInt64.toBitVec 6)[1] = true := by decide
  have same : ∀ place, (below : place < 3) →
      (UInt64.toBitVec 6)[place] = (UInt64.toBitVec 14)[place] := by decide
  intro a b loaded
  have fits : [b, a, b].length ≤ 64 := by decide
  have fits' : [b, a].length ≤ 64 := by decide
  have distinct : [b, a].Nodup := by decide
  obtain ⟨listed, unlisted, digits⟩ := (empty.loading_enumerates_valuations fits).1 6
  obtain ⟨single, -, overwritten⟩ := (loaded.loading_enumerates_valuations fits').2 distinct
  refine ⟨fits, fits', distinct, ?_, ?_, ?_, ?_, ?_, ?_⟩
  · exact (listed [b, a] b [] rfl (by decide)).trans (congrArg some lowest)
  · exact (listed [b] a [b] rfl (by decide)).trans (congrArg some second)
  · exact unlisted ⟨2⟩ (by decide)
  · exact digits 14 same
  · exact single fun letter => letter == b
  · exact overwritten [1, 2] 3 a

end Assignment

end CircuitGrading
