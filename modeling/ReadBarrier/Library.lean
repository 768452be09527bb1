import ReadBarrier.Record

/-!
The libraries that read and write documents, and what they find wrong with a document.
-/

namespace ReadBarrier

/-- What a document holds where something else was expected. -/
inductive Found where
  | null
  | boolean (value : Bool)
  | integer (value : Int)
  /-- A number with a fraction or an exponent, already written out. -/
  | floating (text : String)
  /-- A text, already in quotes. -/
  | string (quoted : String)
  | sequence
  | map
  deriving DecidableEq

def Found.text : Found → String
  | .null => "null"
  | .boolean b => if b then "boolean `true`" else "boolean `false`"
  | .integer n => s!"integer `{n}`"
  | .floating t => s!"floating point `{t}`"
  | .string q => s!"string {q}"
  | .sequence => "sequence"
  | .map => "map"

inductive Expected where
  | record (name : String)
  | boolean | string | sequence
  deriving DecidableEq

def Expected.text : Expected → String
  | .record name => s!"struct {name}"
  | .boolean => "a boolean"
  | .string => "a string"
  | .sequence => "a sequence"

/-- Why a well-formed document is not a record of the type that was asked for. -/
inductive DataFault where
  /-- A key that no field has. The keys that the fields have are listed. -/
  | unknownField (key : String) (keys : List String)
  | duplicateField (key : String)
  | wrongType (found : Found) (expected : Expected)
  deriving DecidableEq

def DataFault.text : DataFault → String
  | .unknownField key keys =>
    let expected := match keys with
      | [] => "there are no fields"
      | [a] => s!"expected `{a}`"
      | [a, b] => s!"expected `{a}` or `{b}`"
      | keys => "expected one of " ++ ", ".intercalate (keys.map fun k => "`" ++ k ++ "`")
    s!"unknown field `{key}`, {expected}"
  | .duplicateField key => s!"duplicate field `{key}`"
  | .wrongType found expected => s!"invalid type: {found.text}, expected {expected.text}"

/-- A place in a text: the line, from one, and the number of bytes of it that were read. -/
structure Position where
  line : Nat
  column : Nat
  deriving DecidableEq

inductive JsonFault where
  | data (fault : DataFault) (position : Position)
  | malformed
  | truncated
  deriving DecidableEq

inductive TomlFault where
  | data (fault : DataFault)
  | malformed
  deriving DecidableEq

/-- What is wrong with a JSON document, and where. -/
def JsonFault.text : JsonFault → String
  | .data fault position =>
    s!"{fault.text} at line {position.line} column {position.column}"
  | .malformed | .truncated => "<syntax>"

def TomlFault.text : TomlFault → String
  | .data fault => fault.text
  | .malformed => "<syntax>"

/-- A library for JSON. It serves every type of records that is declared to it. -/
structure JsonLibrary where
  read {ρ : Type} : Record ρ → String → Except JsonFault ρ
  write {ρ : Type} : Record ρ → ρ → String

/-- A library for TOML. -/
structure TomlLibrary where
  read {ρ : Type} : Record ρ → String → Except TomlFault ρ

end ReadBarrier
