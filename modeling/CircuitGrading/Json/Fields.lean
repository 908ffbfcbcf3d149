import CircuitGrading.Json.Value
import Mathlib.Data.List.Perm.Basic

/-!
# Fields of an object

Readers of records look up the fields that they know and pass over all others. An object holds given
fields if it consists of these fields and of others with other keys, in any order. For fields with
distinct keys this is exactly what a look-up of each of them finds (`JsonValue.holds_iff`).
-/

namespace CircuitGrading.JsonValue

variable {fields : List (String × JsonValue)} {name : String} {value : JsonValue}

/-- The entries are among the fields, each exactly once; all further fields have other keys. -/
def Holds (fields entries : List (String × JsonValue)) : Prop :=
  ∃ others, fields.Perm (entries ++ others) ∧ ∀ field ∈ others, field.1 ∉ entries.map Prod.fst

/-- A look-up finds the value of the only field with the key. -/
theorem field?_eq_some_iff :
    field? fields name = some value ↔
      ∃ others, fields.Perm ((name, value) :: others) ∧ ∀ field ∈ others, field.1 ≠ name := by
  constructor
  · intro found
    unfold field? at found
    split at found
    · rename_i field only
      have member : field ∈ fields.filter fun field => field.1 == name := by
        rw [only]
        exact List.mem_singleton_self field
      have key : field.1 = name := by simpa using (List.mem_filter.mp member).2
      have whole : field = (name, value) := Prod.ext key (Option.some.inj found)
      have parted :=
        List.filter_append_perm (fun field : String × JsonValue => field.1 == name) fields
      rw [only, whole] at parted
      refine ⟨_, parted.symm, fun field member => ?_⟩
      simpa using (List.mem_filter.mp member).2
    · contradiction
  · rintro ⟨others, same, apart⟩
    have kept := same.filter fun field => field.1 == name
    have none : (others.filter fun field => field.1 == name) = [] := by
      rw [List.filter_eq_nil_iff]
      intro field member
      simpa using apart field member
    rw [List.filter_cons_of_pos (by simp), none, List.perm_singleton] at kept
    rw [field?, kept]

/-- The order of the fields does not matter to a look-up. -/
theorem field?_congr {fields' : List (String × JsonValue)} (same : fields.Perm fields') :
    field? fields name = field? fields' name := by
  apply Option.ext
  intro value
  rw [field?_eq_some_iff, field?_eq_some_iff]
  constructor
  · rintro ⟨others, parted, apart⟩
    exact ⟨others, same.symm.trans parted, apart⟩
  · rintro ⟨others, parted, apart⟩
    exact ⟨others, same.trans parted, apart⟩

/-- A field with another key does not matter either. -/
theorem field?_cons_of_ne {field : String × JsonValue} (other : field.1 ≠ name) :
    field? (field :: fields) name = field? fields name := by
  have skipped : ((field :: fields).filter fun field => field.1 == name) =
      fields.filter fun field => field.1 == name :=
    List.filter_cons_of_neg (by simpa using other)
  rw [field?, field?, skipped]

/-- A field has the value that is found under its key. -/
theorem eq_of_mem_of_field? {value' : JsonValue} (found : field? fields name = some value)
    (member : (name, value') ∈ fields) : value' = value := by
  obtain ⟨others, same, apart⟩ := field?_eq_some_iff.mp found
  rcases List.mem_cons.mp (same.mem_iff.mp member) with whole | other
  · exact congrArg Prod.snd whole
  · exact absurd rfl (apart _ other)

/-- An object holds fields with distinct keys exactly if a look-up finds each of them. -/
theorem holds_iff {entries : List (String × JsonValue)} (distinct : (entries.map Prod.fst).Nodup) :
    Holds fields entries ↔ ∀ entry ∈ entries, field? fields entry.1 = some entry.2 := by
  constructor
  · rintro ⟨others, same, apart⟩ entry member
    obtain ⟨front, rest, rfl⟩ := List.append_of_mem member
    rw [List.map_append, List.map_cons, List.perm_middle.nodup_iff, List.nodup_cons] at distinct
    rw [field?_eq_some_iff]
    refine ⟨front ++ rest ++ others, ?_, fun field inside => ?_⟩
    · rw [List.append_assoc, List.cons_append] at same
      rw [List.append_assoc]
      exact same.trans List.perm_middle
    · intro key
      rcases List.mem_append.mp inside with entries | further
      · rw [← List.map_append, ← key] at distinct
        exact distinct.1 (List.mem_map_of_mem entries)
      · exact apart field further (by simp [key])
  · intro found
    -- Entry by entry: the field that is found is taken out of the object.
    induction entries generalizing fields with
    | nil => exact ⟨fields, .refl fields, fun field _ => List.not_mem_nil⟩
    | cons entry rest ih =>
      rw [List.map_cons, List.nodup_cons] at distinct
      obtain ⟨others, same, apart⟩ := field?_eq_some_iff.mp (found entry List.mem_cons_self)
      have later : ∀ next ∈ rest, field? others next.1 = some next.2 := by
        intro next member
        have different : entry.1 ≠ next.1 := fun key =>
          distinct.1 (key ▸ List.mem_map_of_mem member)
        rw [← found next (List.mem_cons_of_mem entry member), field?_congr same,
          field?_cons_of_ne different]
      obtain ⟨further, same', apart'⟩ := ih distinct.2 later
      refine ⟨further, same.trans (same'.cons entry), fun field member => ?_⟩
      have inside : field ∈ others := same'.symm.mem_iff.mp (List.mem_append_right rest member)
      rw [List.map_cons, List.mem_cons, not_or]
      exact ⟨apart field inside, apart' field member⟩

end CircuitGrading.JsonValue
