import ReadBarrier.Config.Error
import ReadBarrier.LoadError

/-!
Errors of the library, and what a caller can do about each kind.

A failure of tracked work is none of them: it passes through as the result of that work.
-/

namespace ReadBarrier

inductive ErrorKind where
  /-- Something that is not pending reached the import tracker. -/
  | invariantViolation
  /-- A read was ended that never began. -/
  | unpairedEndRead
  /-- A configuration could not be read or used. -/
  | invalidConfig
  /-- No loader is registered under the requested name. -/
  | unknownLoader
  deriving DecidableEq

inductive ErrorCategory where
  | internal | signal | config | loader
  deriving DecidableEq

inductive Recoverability where
  | transient
  | permanent
  /-- It depends on the context. -/
  | unknown
  deriving DecidableEq

inductive RecoveryAction where
  /-- Pass the error on. -/
  | propagate
  /-- Abandon the render: its completeness can no longer be trusted. -/
  | escalate
  /-- Decide by the context. -/
  | custom
  deriving DecidableEq

namespace Recoverability

def shouldRetry (r : Recoverability) : Bool := r = .transient

def isPermanent (r : Recoverability) : Bool := r = .permanent

end Recoverability

namespace ErrorKind

def all : List ErrorKind := [.invariantViolation, .unpairedEndRead, .invalidConfig, .unknownLoader]

def category : ErrorKind → ErrorCategory
  | .invariantViolation => .internal
  | .unpairedEndRead => .signal
  | .invalidConfig => .config
  | .unknownLoader => .loader

def recoverability : ErrorKind → Recoverability
  | .invariantViolation | .unpairedEndRead | .invalidConfig => .permanent
  | .unknownLoader => .unknown

def recoveryAction : ErrorKind → RecoveryAction
  | .invariantViolation | .unpairedEndRead => .escalate
  | .invalidConfig => .propagate
  | .unknownLoader => .custom

def text : ErrorKind → String
  | .invariantViolation => "internal invariant violated"
  | .unpairedEndRead => "end_read without matching begin_read"
  | .invalidConfig => "invalid tracking configuration"
  | .unknownLoader => "unknown module loader"

def name : ErrorKind → String
  | .invariantViolation => "InvariantViolation"
  | .unpairedEndRead => "UnpairedEndRead"
  | .invalidConfig => "InvalidConfig"
  | .unknownLoader => "UnknownLoader"

end ErrorKind

mutual

/-- An error: its kind, what there is to say about it, and what caused it. -/
inductive Error where
  | mk (kind : ErrorKind) (detail : Option String) (source : Option Cause)

inductive Cause where
  | error (error : Error)
  | config (error : ConfigError)
  | load (error : LoadError)

end

namespace Error

def kind : Error → ErrorKind
  | .mk kind _ _ => kind

def detail : Error → Option String
  | .mk _ detail _ => detail

def source : Error → Option Cause
  | .mk _ _ source => source

def ofKind (kind : ErrorKind) : Error := .mk kind none none

def withDetail (detail : String) : Error → Error
  | .mk kind _ source => .mk kind (some detail) source

def withSource (source : Cause) : Error → Error
  | .mk kind detail _ => .mk kind detail (some source)

def invariant (detail : String) : Error := (ofKind .invariantViolation).withDetail detail

def unpairedEndRead : Error := ofKind .unpairedEndRead

def unknownLoader (name : String) : Error :=
  (ofKind .unknownLoader).withDetail s!"no loader registered as `{name}`"

def ofConfig (e : ConfigError) : Error :=
  ((ofKind .invalidConfig).withDetail e.message).withSource (.config e)

def isInvariantViolation (e : Error) : Bool := e.kind = .invariantViolation

def message (e : Error) : String :=
  match e.detail with
  | none => e.kind.text
  | some detail => s!"{e.kind.text}: {detail}"

end Error

mutual

/-- The messages of an error's causes, nearest first. -/
def Error.chain : Error → List String
  | .mk _ _ none => []
  | .mk _ _ (some cause) => cause.chain

def Cause.chain : Cause → List String
  | .error e => e.message :: e.chain
  | .config e => e.message :: e.cause?.toList
  | .load e => [e.message]

end

section Dump

open Text

mutual

def Error.dump : Error → Dump
  | .mk kind detail none =>
    .record "Error" [("kind", .raw kind.name), ("message", .option (detail.map .string)),
      ("source", .option none)]
  | .mk kind detail (some cause) =>
    .record "Error" [("kind", .raw kind.name), ("message", .option (detail.map .string)),
      ("source", .option cause.dump)]

def Cause.dump : Cause → Dump
  | .error e => e.dump
  | .config e => e.dump
  | .load e => e.dump

end

end Dump

end ReadBarrier
