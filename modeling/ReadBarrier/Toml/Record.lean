import ReadBarrier.Library
import ReadBarrier.Text.Printing
import ReadBarrier.Text.Quoted
import ReadBarrier.Toml.Document

/-!
A library for TOML.

A text is read as a document first. The keys of its outermost table are the fields of a record; they
are checked in the order in which they came up.
-/

namespace ReadBarrier.Toml

variable {ρ : Type}

/-- What an item is, for someone who expected something else. Dates count as tables. -/
def found : Item → Found
  | .string s => .string (Text.quoted Text.prints s)
  | .scalar (.boolean b) => .boolean b
  | .scalar (.integer n) => .integer n
  | .scalar (.floating x) => .floating (Text.writeDouble (fun _ => true) x)
  | .scalar .moment | .table .. => .map
  | .array _ | .tables _ => .sequence

/-- Refuses an item of the wrong type. -/
def refuse {α : Type} (expected : Expected) (item : Item) : Except DataFault α :=
  .error (.wrongType (found item) expected)

def boolean : Item → Except DataFault Bool
  | .scalar (.boolean b) => .ok b
  | item => refuse .boolean item

def string : Item → Except DataFault String
  | .string s => .ok s
  | item => refuse .string item

def strings : Item → Except DataFault (List String)
  | .array items => items.mapM string
  | .tables elements => elements.mapM fun entries => string (.table .header entries)
  | item => refuse .sequence item

/-- Takes the value of a field. -/
def addField (field : Field ρ) (x : Filling ρ) (item : Item) : Except DataFault (Filling ρ) :=
  match field.access with
  | .boolean _ set => do return x.take field.key (set (← boolean item) x.record)
  | .string _ set => do return x.take field.key (set (← string item) x.record)
  | .strings _ set => do return x.take field.key (set (← strings item) x.record)

def addEntry (R : Record ρ) (x : Filling ρ) (entry : String × Item) :
    Except DataFault (Filling ρ) :=
  match R.field? entry.1 with
  | none => .error (.unknownField entry.1 R.keys)
  | some field => addField field x entry.2

def ofEntries (R : Record ρ) (entries : Entries) : Except DataFault ρ :=
  (·.record) <$> entries.foldlM (addEntry R) R.blank

def library : TomlLibrary where
  read R text :=
    match readDocument text.toList with
    | none => .error .malformed
    | some entries =>
      match ofEntries R entries with
      | .ok r => .ok r
      | .error fault => .error (.data fault)

end ReadBarrier.Toml
