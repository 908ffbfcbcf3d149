/-!
# JSON values

A JSON value is a tree of lists and objects. Numbers are told apart by how they are written: only
a number without fraction and exponent is an integer. Three shapes that many types share are read
here: the name of a variant without content, a count of 64 bits, and the value of a field.
-/

namespace CircuitGrading

/-- A JSON value. -/
inductive JsonValue where
  /-- The value `null`. -/
  | null
  /-- A truth value. -/
  | bool (value : Bool)
  /-- A number written without fraction and exponent. -/
  | integer (value : Int)
  /-- Any other number, as it is written. -/
  | decimal (literal : String)
  /-- A string. -/
  | string (value : String)
  /-- A list of values. -/
  | list (items : List JsonValue)
  /-- The fields of an object, in the order in which they are written. -/
  | object (fields : List (String × JsonValue))

namespace JsonValue

/-- The name of a variant without content: a string, or an object whose only field has the name
as its key and the value `null`. -/
def variantName? : JsonValue → Option String
  | string name => some name
  | object [(name, null)] => some name
  | _ => none

/-- The string that a value is. -/
def string? : JsonValue → Option String
  | string value => some value
  | _ => none

/-- The number of 64 bits that a value is. -/
def count? : JsonValue → Option UInt64
  | integer (.ofNat value) => if value < UInt64.size then some (UInt64.ofNat value) else none
  | _ => none

/-- The value of a field that an object has exactly once. -/
def field? (fields : List (String × JsonValue)) (name : String) : Option JsonValue :=
  match fields.filter fun field => field.1 == name with
  | [field] => some field.2
  | _ => none

/-- A 64-bit number as a value. -/
def ofCount (count : UInt64) : JsonValue := integer count.toNat

/-- The name of a variant is written in one of two ways. -/
theorem variantName?_eq_some_iff {value : JsonValue} {name : String} :
    value.variantName? = some name ↔ value = string name ∨ value = object [(name, null)] := by
  constructor
  · intro named
    unfold variantName? at named
    split at named
    · exact Or.inl (congrArg string (Option.some.inj named))
    · exact Or.inr (congrArg (fun name => object [(name, null)]) (Option.some.inj named))
    · contradiction
  · rintro (rfl | rfl) <;> rfl

/-- A variant that its name finds among all variants is read from the name in either way to write
it. -/
theorem find?_variantName?_eq_some_iff {α : Type} {all : List α} {nameOf : α → String} {variant : α}
    (found : (all.find? fun other => nameOf other == nameOf variant) = some variant)
    {value : JsonValue} :
    (match value.variantName? with
      | some name => all.find? fun other => nameOf other == name
      | none => none) = some variant ↔
      value = string (nameOf variant) ∨ value = object [(nameOf variant, null)] := by
  rw [← variantName?_eq_some_iff]
  constructor
  · intro done
    split at done
    · rename_i name named
      have same : nameOf variant = name := by simpa using List.find?_some done
      rw [named, same]
    · contradiction
  · intro named
    rw [named]
    exact found

/-- A 64-bit number is read back from its value. -/
@[simp] theorem count?_ofCount (count : UInt64) : (ofCount count).count? = some count := by
  have small : count.toNat < UInt64.size := count.toNat_lt
  simp [ofCount, count?, small]

/-- Only the value of a 64-bit number is read as the number. -/
theorem count?_eq_some_iff {value : JsonValue} {count : UInt64} :
    value.count? = some count ↔ value = ofCount count := by
  constructor
  · intro counted
    unfold count? at counted
    split at counted
    · rename_i number
      split at counted
      · rename_i small
        obtain rfl := Option.some.inj counted
        have kept : (UInt64.ofNat number).toNat = number := UInt64.toNat_ofNat_of_lt' small
        rw [ofCount, kept]
        rfl
      · contradiction
    · contradiction
  · rintro rfl
    exact count?_ofCount count

/-- A value is the string that is read from it. -/
theorem string?_eq_some_iff {value : JsonValue} {text : String} :
    value.string? = some text ↔ value = string text := by
  cases value <;> simp [string?]

end JsonValue

end CircuitGrading
