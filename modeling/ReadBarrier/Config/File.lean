import ReadBarrier.Config
import ReadBarrier.Json.Record
import ReadBarrier.Toml.Record

/-!
Configuration files. A file is read as JSON if its name says so, and as TOML otherwise.
-/

namespace ReadBarrier.Config

/-- What follows the last dot of a name. A dot in front of the whole name does not count. -/
def extension? (name : String) : Option String :=
  if name = ".." then none
  else
    match name.toList.reverse.span (· ≠ '.') with
    | (_, []) | (_, [_]) => none
    | (backwards, _) => some (String.ofList backwards.reverse)

end ReadBarrier.Config

namespace ReadBarrier.TrackingConfig

/-- The configuration in a text, by the name of the file that holds it. -/
def fromNamed (json : JsonLibrary) (toml : TomlLibrary) (name text : String) :
    Except ConfigError TrackingConfig :=
  if Config.extension? name = some "json" then fromJson json text else fromToml toml text

/-- The configuration in a file, given its name and its bytes, if it exists. -/
def fromFile (json : JsonLibrary) (toml : TomlLibrary) (name : String) :
    Option ByteArray → Except ConfigError TrackingConfig
  | none => .error (.file .missing)
  | some bytes =>
    match String.fromUTF8? bytes with
    | none => .error (.file .notText)
    | some text => fromNamed json toml name text

/-! ### With the libraries here -/

def ofJson (text : String) : Except ConfigError TrackingConfig := fromJson Json.library text

def ofToml (text : String) : Except ConfigError TrackingConfig := fromToml Toml.library text

def ofFile (name : String) (bytes? : Option ByteArray) : Except ConfigError TrackingConfig :=
  fromFile Json.library Toml.library name bytes?

def toJson (c : TrackingConfig) : String := Json.library.write declaration c

def roundTrips (c : TrackingConfig) : Bool :=
  match ofJson c.toJson with
  | .ok d => d = c
  | .error _ => false

end ReadBarrier.TrackingConfig
