import CircuitGrading.Proofs.Enumeration
import Mathlib.Logic.Function.Basic
import Mathlib.Logic.Function.DependsOn

/-!
# Counting valuations

The choices of values for the letters of a list, the first letter being false in the first half of
them and true in the second, are the valuations that counting upwards enumerates
(`map_numberedOver_range`). So a count of numbers is a count of valuations, and in this form it can
be followed letter by letter: a letter that a property does not depend on doubles the count of the
valuations with the property, wherever in the list the letter comes
(`countP_valuations_of_sublist`).
-/

namespace CircuitGrading.Letter

/-- Every choice of values for the letters of a list; other letters keep their values. -/
def valuations : List Letter → (Letter → Bool) → List (Letter → Bool)
  | [], valuation => [valuation]
  | first :: rest, valuation =>
    valuations rest (Function.update valuation first false) ++
      valuations rest (Function.update valuation first true)

/-- The values that a number gives to the letters of a list; other letters keep their values. -/
def numberedOver (order : List Letter) (valuation : Letter → Bool) (number : Nat)
    (letter : Letter) : Bool :=
  if letter ∈ order then numbered order number letter else valuation letter

variable (valuation : Letter → Bool)

/-- The first letter has the digit that as many digits follow as there are letters after it. -/
theorem numberedOver_cons (first : Letter) (rest : List Letter) (number : Nat) :
    numberedOver (first :: rest) valuation number =
      numberedOver rest (Function.update valuation first (number.testBit rest.length)) number := by
  funext letter
  unfold numberedOver
  by_cases later : letter ∈ rest
  · rw [if_pos (List.mem_cons_of_mem first later), if_pos later,
      numbered_cons_of_mem first number later]
  · rw [if_neg later]
    by_cases here : letter = first
    · subst here
      rw [if_pos List.mem_cons_self, numbered_cons_self number later, Function.update_self]
    · rw [if_neg (by simp [here, later]), Function.update_of_ne here]

/-- A digit above those of the letters gives no letter a value. -/
theorem numberedOver_two_pow_add (order : List Letter) (number : Nat) :
    numberedOver order valuation (2 ^ order.length + number) =
      numberedOver order valuation number := by
  funext letter
  unfold numberedOver
  split
  · rename_i listed
    have inside : order.reverse.idxOf letter < order.length := by
      rw [← List.length_reverse]
      exact List.idxOf_lt_length_of_mem (List.mem_reverse.mpr listed)
    exact Nat.testBit_two_pow_add_gt inside number
  · rfl

/-- Counting upwards enumerates every choice of values in order. -/
theorem map_numberedOver_range (order : List Letter) :
    (List.range (2 ^ order.length)).map (numberedOver order valuation) =
      valuations order valuation := by
  induction order generalizing valuation with
  | nil => rfl
  | cons first rest ih =>
    have low : ∀ number ∈ List.range (2 ^ rest.length),
        numberedOver (first :: rest) valuation number =
          numberedOver rest (Function.update valuation first false) number := by
      intro number inside
      rw [numberedOver_cons, Nat.testBit_lt_two_pow (List.mem_range.mp inside)]
    have high : ∀ number ∈ List.range (2 ^ rest.length),
        (numberedOver (first :: rest) valuation ∘ (2 ^ rest.length + ·)) number =
          numberedOver rest (Function.update valuation first true) number := by
      intro number inside
      rw [Function.comp_apply, numberedOver_cons, Nat.testBit_two_pow_add_eq,
        Nat.testBit_lt_two_pow (List.mem_range.mp inside), numberedOver_two_pow_add]
      rfl
    rw [List.length_cons, Nat.two_pow_succ, List.range_add, List.map_append, List.map_map,
      List.map_congr_left low, List.map_congr_left high, ih, ih, valuations]

section Counts

variable {test : (Letter → Bool) → Bool}

/-- A count of numbers is a count of valuations, if the property depends on the listed letters
only. -/
theorem countP_range_eq {order : List Letter} (depends : DependsOn test {letter | letter ∈ order}) :
    (List.range (2 ^ order.length)).countP (fun number => test (numbered order number)) =
      (valuations order valuation).countP test := by
  rw [← map_numberedOver_range, List.countP_map]
  refine List.countP_congr fun number _ => ?_
  have same : test (numbered order number) = test (numberedOver order valuation number) :=
    depends fun letter listed => (if_pos listed).symm
  rw [same, Function.comp_apply]

variable {known : Set Letter} (depends : DependsOn test known)

include depends

/-- The values of letters that a property does not depend on do not matter to the count. -/
theorem countP_valuations_congr {valuation' : Letter → Bool}
    (same : ∀ letter ∈ known, valuation letter = valuation' letter) (order : List Letter) :
    (valuations order valuation).countP test = (valuations order valuation').countP test := by
  induction order generalizing valuation valuation' with
  | nil => simp only [valuations, List.countP_singleton, depends same]
  | cons first rest ih =>
    have updated : ∀ value, ∀ letter ∈ known, Function.update valuation first value letter =
        Function.update valuation' first value letter := by
      intro value letter member
      rw [Function.update_apply, Function.update_apply, same letter member]
    rw [valuations, valuations, List.countP_append, List.countP_append, ih _ (updated false),
      ih _ (updated true)]

/-- Each further letter that a property does not depend on doubles the number of valuations with
the property. -/
theorem countP_valuations_of_sublist {order order' : List Letter} (further : order.Sublist order')
    (distinct : order'.Nodup) (idle : ∀ letter ∈ order', letter ∈ known → letter ∈ order) :
    (valuations order' valuation).countP test =
      2 ^ (order'.length - order.length) * (valuations order valuation).countP test := by
  induction further generalizing valuation with
  | slnil => simp [valuations]
  | @cons order order' letter further ih =>
    obtain ⟨single, distinct⟩ := List.nodup_cons.mp distinct
    have unknown : letter ∉ known := fun member =>
      single (further.subset (idle letter List.mem_cons_self member))
    have unaltered : ∀ value, ∀ letter' ∈ known,
        Function.update valuation letter value letter' = valuation letter' := by
      intro value letter' member
      have other : letter' ≠ letter := fun same => unknown (same ▸ member)
      exact Function.update_of_ne other value valuation
    have half : ∀ value, (valuations order' (Function.update valuation letter value)).countP test =
        2 ^ (order'.length - order.length) * (valuations order valuation).countP test := by
      intro value
      rw [ih _ distinct fun letter' member => idle letter' (List.mem_cons_of_mem letter member),
        countP_valuations_congr _ depends (unaltered value)]
    rw [valuations, List.countP_append, half false, half true, List.length_cons,
      Nat.succ_sub further.length_le, Nat.pow_succ, Nat.mul_right_comm, Nat.mul_two]
  | @cons_cons order order' letter further ih =>
    obtain ⟨single, distinct⟩ := List.nodup_cons.mp distinct
    have later : ∀ letter' ∈ order', letter' ∈ known → letter' ∈ order := by
      intro letter' listed member
      rcases List.mem_cons.mp (idle letter' (List.mem_cons_of_mem letter listed) member) with
        rfl | earlier
      · exact absurd listed single
      · exact earlier
    rw [valuations, valuations, List.countP_append, List.countP_append, ih _ distinct later,
      ih _ distinct later, List.length_cons, List.length_cons, Nat.add_sub_add_right, Nat.mul_add]

end Counts

end CircuitGrading.Letter
