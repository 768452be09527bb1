/-!
Types of records, as they are declared to libraries that read and write documents.

A document gives fields of a record by their keys, in any order and each at most once, or their
values alone, in the order of the declaration. What it does not give has its default.
-/

namespace ReadBarrier

variable {ρ : Type}

/-- The type of a field, with the way to its value in a record. -/
inductive Access (ρ : Type) where
  | boolean (get : ρ → Bool) (set : Bool → ρ → ρ)
  | string (get : ρ → String) (set : String → ρ → ρ)
  | strings (get : ρ → List String) (set : List String → ρ → ρ)

structure Field (ρ : Type) where
  key : String
  access : Access ρ

structure Record (ρ : Type) where
  name : String
  fields : List (Field ρ)
  distinct : (fields.map (·.key)).Nodup
  default : ρ

/-- A record that is being read, with the keys that were given so far. -/
structure Filling (ρ : Type) where
  record : ρ
  given : List String := []

/-- The filling with the value of one more key. -/
def Filling.take (x : Filling ρ) (key : String) (record : ρ) : Filling ρ :=
  ⟨record, key :: x.given⟩

namespace Record

def keys (R : Record ρ) : List String := R.fields.map (·.key)

def field? (R : Record ρ) (key : String) : Option (Field ρ) := R.fields.find? (·.key == key)

def blank (R : Record ρ) : Filling ρ := { record := R.default }

end Record

end ReadBarrier
