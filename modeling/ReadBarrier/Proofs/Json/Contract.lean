import ReadBarrier.Json.Record
import ReadBarrier.Proofs.Json.Grammar

/-!
What is relied on in a library for JSON.

Its reader takes the JSON texts and no others, and takes them for what their values say. The fields
of a record may be given by an object, in any order, each at most once and no others, or by an array
of their values; those that are not given have their defaults. Its writer writes no blanks.
-/

namespace ReadBarrier

open Json (Value)

variable {ρ : Type}

/-! ### What a value says -/

namespace Json.Value

def boolean? : Value → Option Bool
  | boolean b => some b
  | _ => none

def string? : Value → Option String
  | string s => some s
  | _ => none

def strings? : Value → Option (List String)
  | array items => items.mapM string?
  | _ => none

theorem boolean?_eq_some {v : Value} {b : Bool} : v.boolean? = some b ↔ v = boolean b := by
  cases v <;> simp [boolean?]

theorem string?_eq_some {v : Value} {a : String} : v.string? = some a ↔ v = string a := by
  cases v <;> simp [string?]

theorem mapM_string (l : List String) : (l.map string).mapM string? = some l := by
  induction l with
  | nil => rfl
  | cons a l ih =>
    rw [List.map_cons, List.mapM_cons, ih]
    rfl

theorem mapM_string?_eq_some {items : List Value} {l : List String} :
    items.mapM string? = some l ↔ items = l.map string := by
  constructor
  · intro h
    induction items generalizing l with
    | nil =>
      cases h
      rfl
    | cons v items ih =>
      rw [List.mapM_cons] at h
      obtain ⟨a, ha, h⟩ := Option.bind_eq_some_iff.mp h
      obtain ⟨l', hl', h⟩ := Option.bind_eq_some_iff.mp h
      cases h
      rw [string?_eq_some.mp ha, ih hl', List.map_cons]
  · rintro rfl
    exact mapM_string l

theorem strings?_eq_some {v : Value} {l : List String} :
    v.strings? = some l ↔ v = array (l.map string) := by
  cases v with
  | array items =>
    rw [strings?, mapM_string?_eq_some]
    simp
  | _ => simp [strings?]

end Json.Value

/-- The value of a field. -/
def Field.value (field : Field ρ) (r : ρ) : Value :=
  match field.access with
  | .boolean get _ => .boolean (get r)
  | .string get _ => .string (get r)
  | .strings get _ => .array ((get r).map .string)

namespace Filling

/-- The filling with the value of a field, if that is of the right type. -/
def put? (x : Filling ρ) (field : Field ρ) (v : Value) : Option (Filling ρ) :=
  match field.access with
  | .boolean _ set => v.boolean?.map fun b => x.take field.key (set b x.record)
  | .string _ set => v.string?.map fun s => x.take field.key (set s x.record)
  | .strings _ set => v.strings?.map fun l => x.take field.key (set l x.record)

/-- The filling with the values of some fields, in the order of the fields. -/
def fill? (x : Filling ρ) : List (Field ρ) → List Value → Option (Filling ρ)
  | _, [] => some x
  | [], _ :: _ => none
  | field :: fields, v :: vs => (x.put? field v).bind (·.fill? fields vs)

end Filling

namespace Record

/-- The filling with a member of an object, if that gives a field which was not given before. -/
def add? (R : Record ρ) (x : Filling ρ) (member : String × Value) : Option (Filling ρ) :=
  match R.field? member.1 with
  | none => none
  | some field => if field.key ∈ x.given then none else x.put? field member.2

def filling? (R : Record ρ) : Value → Option (Filling ρ)
  | .object members => members.foldlM R.add? R.blank
  | .array items => R.blank.fill? R.fields items
  | _ => none

/-- The record that a value says. -/
def ofValue? (R : Record ρ) (v : Value) : Option ρ := (R.filling? v).map (·.record)

end Record

/-! ### What a library does -/

/-- What is documented of a library for JSON, for whichever type of records. -/
structure JsonLibrary.Documented (json : JsonLibrary) : Prop where
  /-- A text is read as what its value says, or refused if that says no record. -/
  reads {ρ : Type} (R : Record ρ) {text : String} {v : Value} (h : Json.IsText text.toList v) :
    (json.read R text).toOption = R.ofValue? v
  /-- What is no JSON text is refused. -/
  refuses {ρ : Type} (R : Record ρ) {text : String} (h : ∀ v, ¬ Json.IsText text.toList v) :
    (json.read R text).toOption = none
  /-- A record is written as the object of all its fields, in the order of the declaration. -/
  writes {ρ : Type} (R : Record ρ) (r : ρ) : (json.write R r).toList = Json.objectText R.fields r

end ReadBarrier
