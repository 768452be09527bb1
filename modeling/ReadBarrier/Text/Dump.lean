import ReadBarrier.Text.Printing
import ReadBarrier.Text.Quoted

/-!
Dumps: one-line descriptions of values for a developer, with the name of each type and field.

A dump that would need a character outside ASCII, or one written by its number, is left out as a
whole, because how such characters are shown depends on the version of the character tables.
-/

namespace ReadBarrier.Text

structure Dump where
  text : String

namespace Dump

def raw (s : String) : Dump := ⟨s⟩

def nat (n : Nat) : Dump := ⟨toString n⟩

def bool (b : Bool) : Dump := ⟨if b then "true" else "false"⟩

def string (s : String) : Dump := ⟨quoted prints s⟩

def commas (parts : List String) : String := ", ".intercalate parts

def list (items : List Dump) : Dump := ⟨"[" ++ commas (items.map (·.text)) ++ "]"⟩

def map (items : List (Dump × Dump)) : Dump :=
  ⟨"\x7b" ++ commas (items.map fun (k, v) => k.text ++ ": " ++ v.text) ++ "\x7d"⟩

/-- A constructor applied to its arguments. -/
def call (name : String) (arguments : List Dump) : Dump :=
  ⟨name ++ "(" ++ commas (arguments.map (·.text)) ++ ")"⟩

def record (name : String) (fields : List (String × Dump)) : Dump :=
  ⟨name ++ " \x7b " ++ commas (fields.map fun (k, v) => k ++ ": " ++ v.text) ++ " \x7d"⟩

/-- A record of which only some fields are shown. -/
def partialRecord (name : String) (fields : List (String × Dump)) : Dump :=
  ⟨name ++ " \x7b " ++ String.join (fields.map fun (k, v) => k ++ ": " ++ v.text ++ ", ") ++
    ".. \x7d"⟩

def option : Option Dump → Dump
  | none => ⟨"None"⟩
  | some d => call "Some" [d]

/-- Whether a dump shows its value without characters outside ASCII and without numbered ones. -/
def isPlain (d : Dump) : Bool :=
  d.text.toList.all (·.toNat < 0x80) && (d.text.splitOn "\\u\x7b").length == 1

/-- The dump, or a remark in its place if it is not plain. -/
def render (d : Dump) : String := if d.isPlain then d.text else "<not ascii>"

end Dump

end ReadBarrier.Text
