import ReadBarrier.Config.Error
import ReadBarrier.Text.Blank

/-!
The configuration of the instrumentation pass, and which configurations can be used.
-/

namespace ReadBarrier

/-- The start of the name of every tracked function and, unless configured otherwise, of every
wrapped loader. -/
def trackedNamePrefix : String := "tracked::"

/-- The globals under which bundlers keep their loaders. -/
def bundlerGlobals : List String :=
  ["__webpack_load__", "__webpack_require__", "__turbopack_load__", "__turbopack_require__"]

structure TrackingConfig where
  enabled : Bool := true
  /-- The start of the diagnostic name of each wrapped loader. -/
  functionNamePrefix : String := trackedNamePrefix
  instrumentedGlobals : List String := bundlerGlobals
  deriving DecidableEq

namespace TrackingConfig

def disabled : TrackingConfig := { enabled := false }

/-- Looks for the first global that is blank or stands among the earlier ones. -/
def checkGlobals (earlier : List String) : List String → Except InvalidValue Unit
  | [] => .ok ()
  | name :: rest =>
    if Text.isBlank name then .error .blankGlobal
    else if name ∈ earlier then .error (.repeatedGlobal name)
    else checkGlobals (name :: earlier) rest

/-- Checks that the pass can use the values, whether or not it is enabled. -/
def validate (c : TrackingConfig) : Except InvalidValue Unit :=
  if c.functionNamePrefix = "" then .error .emptyPrefix
  else checkGlobals [] c.instrumentedGlobals

def validated (c : TrackingConfig) : Except ConfigError TrackingConfig :=
  match c.validate with
  | .ok () => .ok c
  | .error value => .error (.invalid value)

end TrackingConfig

def ConfigField.access : ConfigField → Access TrackingConfig
  | .enabled => .boolean (·.enabled) fun b c => { c with enabled := b }
  | .functionNamePrefix => .string (·.functionNamePrefix) fun s c => { c with functionNamePrefix := s }
  | .instrumentedGlobals =>
    .strings (·.instrumentedGlobals) fun l c => { c with instrumentedGlobals := l }

def ConfigField.declared (field : ConfigField) : Field TrackingConfig := ⟨field.key, field.access⟩

namespace TrackingConfig

/-- Configurations, as they are declared to the libraries for documents. -/
def declaration : Record TrackingConfig where
  name := "TrackingConfig"
  fields := ConfigField.all.map ConfigField.declared
  distinct := by decide
  default := {}

/-- What a library read, if it can be used. -/
def ofRead {ε : Type} (error : ε → ConfigError) :
    Except ε TrackingConfig → Except ConfigError TrackingConfig
  | .ok c => c.validated
  | .error fault => .error (error fault)

/-- The configuration in a JSON document, if it can be used. -/
def fromJson (json : JsonLibrary) (text : String) : Except ConfigError TrackingConfig :=
  ofRead .json (json.read declaration text)

/-- The configuration in a TOML document, if it can be used. -/
def fromToml (toml : TomlLibrary) (text : String) : Except ConfigError TrackingConfig :=
  ofRead .toml (toml.read declaration text)

open Text in
def dump (c : TrackingConfig) : Dump :=
  .record "TrackingConfig" [("enabled", .bool c.enabled),
    ("function_name_prefix", .string c.functionNamePrefix),
    ("instrumented_globals", .list (c.instrumentedGlobals.map .string))]

end TrackingConfig

end ReadBarrier
