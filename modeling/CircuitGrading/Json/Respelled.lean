import CircuitGrading.Json.Circuit
import Mathlib.Logic.Relation

/-!
# Respelled JSON values

The name of a binary gate is a string, and in its place may stand an object that gives the name
the value `null`. A value is respelled name by name, wherever in the value the names are; a value in
which no name is an object is canonical.
-/

namespace CircuitGrading.JsonValue

/-- A list with one member can be cut in front of that member only. -/
theorem append_cons_eq_singleton {α : Type} {front rest : List α} {cut only : α}
    (same : [only] = front ++ cut :: rest) : front = [] ∧ cut = only ∧ rest = [] := by
  cases front with
  | nil => simpa [eq_comm] using same
  | cons first front => simp at same

/-- The string that names a binary gate becomes an object, at one place of a value. -/
inductive Respell : JsonValue → JsonValue → Prop where
  /-- The value is the name. -/
  | name (gate : BinaryGate) :
      Respell (string gate.variantName) (object [(gate.variantName, null)])
  /-- The name is in an item of a list. -/
  | item (front rest : List JsonValue) {value value' : JsonValue} :
      Respell value value' →
      Respell (list (front ++ value :: rest)) (list (front ++ value' :: rest))
  /-- The name is in a field of an object. -/
  | field (front rest : List (String × JsonValue)) (key : String) {value value' : JsonValue} :
      Respell value value' →
      Respell (object (front ++ (key, value) :: rest)) (object (front ++ (key, value') :: rest))

/-- Any number of strings that name binary gates become objects. -/
def Respelled : JsonValue → JsonValue → Prop := Relation.ReflTransGen Respell

/-- No name of a binary gate is an object. -/
def Canonical (value : JsonValue) : Prop := ∀ other, ¬Respell other value

variable {value other : JsonValue}

namespace Respell

/-- A step in an object with one field is a step in the value of the field. -/
theorem exists_field {key : String} (step : Respell (object [(key, value)]) other) :
    ∃ value', other = object [(key, value')] ∧ Respell value value' := by
  generalize same : object [(key, value)] = source at step
  cases step with
  | name gate => contradiction
  | item front rest inner => contradiction
  | @field front rest key' value₁ value₂ inner =>
    obtain ⟨rfl, named, rfl⟩ := append_cons_eq_singleton (object.inj same)
    cases named
    exact ⟨value₂, rfl, inner⟩

/-- A step in a list of two values is a step in one of them. -/
theorem exists_pair {first second : JsonValue} (step : Respell (list [first, second]) other) :
    (∃ first', other = list [first', second] ∧ Respell first first') ∨
      ∃ second', other = list [first, second'] ∧ Respell second second' := by
  generalize same : list [first, second] = source at step
  cases step with
  | name gate => contradiction
  | @item front rest value₁ value₂ inner =>
    have items := list.inj same
    cases front with
    | nil =>
      cases items
      exact Or.inl ⟨value₂, rfl, inner⟩
    | cons head front =>
      obtain ⟨rfl, tail⟩ := List.cons.inj items
      obtain ⟨rfl, rfl, rfl⟩ := append_cons_eq_singleton tail
      exact Or.inr ⟨value₂, rfl, inner⟩
  | field front rest key inner => contradiction

/-- A step from a string writes the object of its name. -/
theorem exists_name {name : String} (step : Respell (string name) other) :
    ∃ gate : BinaryGate, name = gate.variantName ∧ other = object [(name, null)] := by
  generalize same : string name = source at step
  cases step with
  | name gate =>
    obtain rfl := string.inj same
    exact ⟨gate, rfl, rfl⟩
  | item front rest inner => contradiction
  | field front rest key inner => contradiction

/-- There is no name in the value `null`. -/
theorem not_null : ¬Respell null other := by
  intro step
  cases step

end Respell

namespace Respelled

/-- What becomes of the value of a field becomes of an object with the one field. -/
theorem field (key : String) (steps : Respelled value other) :
    Respelled (object [(key, value)]) (object [(key, other)]) :=
  steps.lift (fun value => object [(key, value)]) fun _ _ => .field [] [] key

/-- What becomes of two values becomes of the list of both. -/
theorem pair {second second' : JsonValue} (steps : Respelled value other)
    (steps' : Respelled second second') :
    Respelled (list [value, second]) (list [other, second']) := by
  have inFirst : Respelled (list [value, second]) (list [other, second]) :=
    steps.lift (fun item => list [item, second]) fun _ _ => .item [] [second]
  have inSecond : Respelled (list [other, second]) (list [other, second']) :=
    steps'.lift (fun item => list [other, item]) fun _ _ => .item [other] []
  exact Relation.ReflTransGen.trans inFirst inSecond

end Respelled

namespace Canonical

/-- A string is canonical. -/
theorem string (name : String) : Canonical (string name) := by
  intro other step
  cases step

/-- A list of canonical values is canonical. -/
theorem list {items : List JsonValue} (canonical : ∀ item ∈ items, Canonical item) :
    Canonical (list items) := by
  intro other step
  cases step with
  | @item front rest value value' inner =>
    exact canonical value' (List.mem_append_right front List.mem_cons_self) value inner

/-- A list of two canonical values is canonical. -/
theorem pair (first : Canonical value) (second : Canonical other) :
    Canonical (.list [value, other]) :=
  list (List.forall_mem_cons.mpr ⟨first, List.forall_mem_singleton.mpr second⟩)

/-- An object with one field is canonical if the value of the field is, unless that is `null`. -/
theorem field (key : String) (content : value ≠ null) (canonical : Canonical value) :
    Canonical (object [(key, value)]) := by
  intro other step
  generalize same : object [(key, value)] = target at step
  cases step with
  | name gate =>
    cases same
    exact content rfl
  | item front rest inner => contradiction
  | @field front rest key' value₁ value₂ inner =>
    obtain ⟨-, named, -⟩ := append_cons_eq_singleton (object.inj same)
    cases named
    exact canonical value₁ inner

end Canonical

end CircuitGrading.JsonValue
