import ReadBarrier.Proofs.Json.Contract

/-!
What is relied on in a library for TOML, and for which documents.

These are documents in TOML 1.0 that have a line for each key, with a truth value, a basic string or
an array of basic strings. They are taken for what a JSON object with these members says.
-/

namespace ReadBarrier

open Json (Value)

namespace Toml

/-- Blanks may stand before and behind every token of a line. -/
def Gap (s t : List Char) : Prop := ∃ blanks, s = blanks ++ t ∧ ∀ c ∈ blanks, c = ' ' ∨ c = '\t'

theorem Gap.refl (s : List Char) : Gap s s := ⟨[], rfl, by simp⟩

/-- The escapes of two characters: what stands behind the backslash, and what it spells. -/
def escapes : List (Char × Char) :=
  [('b', '\x08'), ('t', '\t'), ('n', '\n'), ('f', '\x0c'), ('r', '\r'), ('"', '"'), ('\\', '\\')]

/-- What a basic string spells, after its opening quote. -/
inductive Spells : List Char → List Char → List Char → Prop
  | close {t : List Char} : Spells ('"' :: t) [] t
  | plain {c : Char} {s cs t : List Char} (hquote : c ≠ '"') (hbackslash : c ≠ '\\')
      (hcontrol : c = '\t' ∨ 0x20 ≤ c.toNat) (hdelete : c.toNat ≠ 0x7F) (h : Spells s cs t) :
      Spells (c :: s) (c :: cs) t
  | escape {e c : Char} {s cs t : List Char} (he : (e, c) ∈ escapes) (h : Spells s cs t) :
      Spells ('\\' :: e :: s) (c :: cs) t
  | unit {c : Char} {quad s cs t : List Char} (hquad : Json.IsQuad quad c.toNat)
      (h : Spells s cs t) : Spells ('\\' :: 'u' :: (quad ++ s)) (c :: cs) t

/-- The further strings of an array, and its end. -/
inductive More : List Char → List String → List Char → Prop
  | done {s t : List Char} (h : Gap s (']' :: t)) : More s [] t
  | next {s u v w cs t : List Char} {as : List String} (hcomma : Gap s (',' :: u))
      (hgap : Gap u ('"' :: v)) (hs : Spells v cs w) (h : More w as t) :
      More s (String.ofList cs :: as) t

/-- The strings of an array, after its opening bracket. -/
inductive Strings : List Char → List String → List Char → Prop
  | empty {s t : List Char} (h : Gap s (']' :: t)) : Strings s [] t
  | first {s v w cs t : List Char} {as : List String} (hgap : Gap s ('"' :: v))
      (hs : Spells v cs w) (h : More w as t) : Strings s (String.ofList cs :: as) t

inductive IsItem : List Char → Value → List Char → Prop
  | boolean {b : Bool} {t : List Char} :
      IsItem ((if b then "true" else "false").toList ++ t) (.boolean b) t
  | string {s cs t : List Char} (h : Spells s cs t) :
      IsItem ('"' :: s) (.string (String.ofList cs)) t
  | strings {s t : List Char} {as : List String} (h : Strings s as t) :
      IsItem ('[' :: s) (.array (as.map .string)) t

def IsKey (key : List Char) : Prop := key ≠ [] ∧ ∀ c ∈ key, c.isAlphanum ∨ c = '_' ∨ c = '-'

/-- What a line assigns, and what stands behind it. -/
inductive Assigns : List Char → String × Value → List Char → Prop
  | mk {key s u v w t : List Char} {a : Value} (hkey : IsKey key) (hequals : Gap s ('=' :: u))
      (hgap : Gap u v) (ha : IsItem v a w) (hend : Gap w t) :
      Assigns (key ++ s) (String.ofList key, a) t

inductive Lines : List Char → List (String × Value) → Prop
  | nil : Lines [] []
  | empty {s : List Char} {ms : List (String × Value)} (h : Lines s ms) : Lines ('\n' :: s) ms
  | last {s : List Char} {m : String × Value} (h : Assigns s m []) : Lines s [m]
  | line {s t : List Char} {m : String × Value} {ms : List (String × Value)}
      (h : Assigns s m ('\n' :: t)) (hs : Lines t ms) : Lines s (m :: ms)

/-- A document does not assign to a key twice. -/
structure IsDocument (s : List Char) (ms : List (String × Value)) : Prop where
  lines : Lines s ms
  keys : (ms.map Prod.fst).Nodup

end Toml

/-- What is documented of a library for TOML, for whichever type of records. -/
structure TomlLibrary.Documented (toml : TomlLibrary) : Prop where
  /-- A document is read as what its assignments say, or refused if they say no record. -/
  reads {ρ : Type} (R : Record ρ) {text : String} {ms : List (String × Value)}
    (h : Toml.IsDocument text.toList ms) : (toml.read R text).toOption = R.ofValue? (.object ms)

end ReadBarrier
