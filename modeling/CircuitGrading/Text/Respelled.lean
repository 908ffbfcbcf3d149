import CircuitGrading.Text.Blank
import Mathlib.Logic.Relation

/-!
# Respelled texts

A text is respelled character by character: a blank is written at any place or struck out, or a
letter of the ASCII range is written in the other case. Any number of such steps may follow one
another, and each of them can be taken back.
-/

namespace CircuitGrading.Text

/-- One character is spelled in another way. -/
inductive Respell : Text → Text → Prop where
  /-- A blank is written. -/
  | write (front rest : Text) {c : Char} :
      isBlank c = true → Respell (front ++ rest) (front ++ c :: rest)
  /-- A blank is struck out. -/
  | strike (front rest : Text) {c : Char} :
      isBlank c = true → Respell (front ++ c :: rest) (front ++ rest)
  /-- A letter is written in the other case; only those of the ASCII range have cases here. -/
  | recase (front rest : Text) {c d : Char} :
      c.toUpper = d.toUpper → Respell (front ++ c :: rest) (front ++ d :: rest)

/-- Any number of characters are spelled in another way. -/
def Respelled : Text → Text → Prop := Relation.ReflTransGen Respell

variable {text text' : Text}

/-- A step can be taken back. -/
theorem Respell.symm (step : Respell text text') : Respell text' text := by
  cases step with
  | write front rest blank => exact .strike front rest blank
  | strike front rest blank => exact .write front rest blank
  | recase front rest same => exact .recase front rest same.symm

/-- A step in a text is a step in a longer one. -/
theorem Respell.cons (c : Char) (step : Respell text text') : Respell (c :: text) (c :: text') := by
  cases step with
  | write front rest blank => exact .write (c :: front) rest blank
  | strike front rest blank => exact .strike (c :: front) rest blank
  | recase front rest same => exact .recase (c :: front) rest same

namespace Respelled

/-- The steps can be taken back. -/
theorem symm (steps : Respelled text text') : Respelled text' text := by
  induction steps with
  | refl => exact .refl
  | tail _ last ih => exact .head last.symm ih

/-- The steps can follow those of another respelling. -/
theorem trans {text'' : Text} (before : Respelled text text') (after : Respelled text' text'') :
    Respelled text text'' :=
  Relation.ReflTransGen.trans before after

/-- A letter in front of respelled texts may be in either case. -/
theorem cons {c d : Char} (same : c.toUpper = d.toUpper) (steps : Respelled text text') :
    Respelled (c :: text) (d :: text') := by
  have below : Respelled (c :: text) (c :: text') := by
    induction steps with
    | refl => exact .refl
    | tail _ last ih => exact .tail ih (last.cons c)
  exact .tail below (.recase [] text' same)

/-- A blank in front of a text may be struck out. -/
theorem strike (text : Text) {c : Char} (blank : isBlank c = true) : Respelled (c :: text) text :=
  .single (.strike [] text blank)

end Respelled

end CircuitGrading.Text
