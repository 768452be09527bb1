import ReadBarrier.Library
import ReadBarrier.Text.Dump

/-!
What can be wrong with a configuration: the document, a field of the document, or a value.
-/

namespace ReadBarrier

inductive ConfigField where
  | enabled | functionNamePrefix | instrumentedGlobals
  deriving DecidableEq

namespace ConfigField

def key : ConfigField → String
  | .enabled => "enabled"
  | .functionNamePrefix => "functionNamePrefix"
  | .instrumentedGlobals => "instrumentedGlobals"

/-- All fields, in the order of a positional document. -/
def all : List ConfigField := [.enabled, .functionNamePrefix, .instrumentedGlobals]

end ConfigField

inductive FileFault where
  | missing
  | notText
  deriving DecidableEq

/-- Which value the instrumentation cannot use. -/
inductive InvalidValue where
  | emptyPrefix
  | blankGlobal
  | repeatedGlobal (name : String)
  deriving DecidableEq

namespace InvalidValue

def field : InvalidValue → ConfigField
  | .emptyPrefix => .functionNamePrefix
  | .blankGlobal | .repeatedGlobal _ => .instrumentedGlobals

def reason : InvalidValue → String
  | .emptyPrefix => "must not be empty"
  | .blankGlobal => "names must not be blank"
  | .repeatedGlobal name => s!"`{name}` is listed twice"

end InvalidValue

/-- Why there is no configuration. -/
inductive ConfigError where
  | json (fault : JsonFault)
  | toml (fault : TomlFault)
  | file (fault : FileFault)
  | invalid (value : InvalidValue)
  deriving DecidableEq

def FileFault.text : FileFault → String
  | .missing => "No such file or directory (os error 2)"
  | .notText => "stream did not contain valid UTF-8"

namespace ConfigError

def cause? : ConfigError → Option String
  | .json fault => some fault.text
  | .toml fault => some fault.text
  | .file fault => some fault.text
  | .invalid _ => none

def message : ConfigError → String
  | .json fault => s!"invalid JSON config: {fault.text}"
  | .toml fault => s!"invalid TOML config: {fault.text}"
  | .file fault => s!"failed to read config file: {fault.text}"
  | .invalid value => s!"invalid value for `{value.field.key}`: {value.reason}"

end ConfigError

open Text in
def InvalidValue.dump (value : InvalidValue) : Dump :=
  .record "Invalid" [("field", .string value.field.key), ("reason", .string value.reason)]

open Text in
/-- The dump of an error. Faults of documents and files are shown by their text. -/
def ConfigError.dump : ConfigError → Dump
  | .invalid value => value.dump
  | .json fault => .call "Json" [.string fault.text]
  | .toml fault => .call "Toml" [.string fault.text]
  | .file fault => .call "Io" [.string fault.text]

end ReadBarrier
