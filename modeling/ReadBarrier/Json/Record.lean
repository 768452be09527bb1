import ReadBarrier.Json.Number
import ReadBarrier.Text.Printing
import ReadBarrier.Text.Quoted

/-!
A library for JSON.

A document is an object with some of the fields of a record, each once and in any order, or an array
of their values in the order of the fields. It is read from front to back, and the first thing wrong
with it decides, whether that is its form or its content.
-/

namespace ReadBarrier.Json

open Text (Read skip)

variable {ρ : Type}

/-- Why reading stopped. A fault of the content keeps the text that was not read yet. -/
inductive Fault where
  | data (fault : DataFault) (unread : List Char)
  | form (fault : SyntaxFault)

def malformed {α : Type} : Except Fault α := .error (.form .malformed)

def truncated {α : Type} : Except Fault α := .error (.form .truncated)

/-- A fault of the form, where reading a document. -/
def ofSyntax {α : Type} : Except SyntaxFault α → Except Fault α
  | .ok a => .ok a
  | .error fault => .error (.form fault)

/-- Blanks between the parts of a document. -/
def isBlank (c : Char) : Bool := c = ' ' || c = '\n' || c = '\t' || c = '\r'

def readWord : List Char → List Char → Except Fault (List Char)
  | [], s => .ok s
  | _ :: _, [] => truncated
  | w :: word, c :: s => if c = w then readWord word s else malformed

/-- Refuses a value of the wrong type. Words, numbers and strings are read first; arrays and objects
are refused where they open. -/
def refuse {α : Type} (expected : Expected) (s : List Char) : Except Fault α := do
  let wrong (found : Found) (unread : List Char) : Except Fault α :=
    .error (.data (.wrongType found expected) unread)
  match s with
  | [] => truncated
  | 'n' :: t => wrong .null (← readWord "ull".toList t)
  | 't' :: t => wrong (.boolean true) (← readWord "rue".toList t)
  | 'f' :: t => wrong (.boolean false) (← readWord "alse".toList t)
  | '"' :: t =>
    let r ← ofSyntax (readLiteral t)
    wrong (.string (Text.quoted Text.prints (String.ofList r.value))) r.rest
  | '[' :: _ => wrong .sequence s
  | '{' :: _ => wrong .map s
  | '-' :: t =>
    let (n, rest) ← ofSyntax (readNumber true t)
    wrong n.found rest
  | c :: _ =>
    if c.isDigit then
      let (n, rest) ← ofSyntax (readNumber false s)
      wrong n.found rest
    else malformed

def readBoolean (s : List Char) : Except Fault (Bool × List Char) :=
  match skip isBlank s with
  | 't' :: t => do return (true, ← readWord "rue".toList t)
  | 'f' :: t => do return (false, ← readWord "alse".toList t)
  | t => refuse .boolean t

/-- Reads a string, and shows that it shortens the text. -/
def readStringOf (s : List Char) : Except Fault (Read s String) :=
  match h : skip isBlank s with
  | '"' :: t => do
    let r ← ofSyntax (readLiteral t)
    return (r.map String.ofList).widen (by
      have := Text.length_skip_le isBlank s
      simp only [h, List.length_cons] at this
      omega)
  | t => refuse .string t

def readString (s : List Char) : Except Fault (String × List Char) := do
  let r ← readStringOf s
  return (r.value, r.rest)

/-- Reads the further elements of an array of strings, and its end. -/
def readMoreStrings (s : List Char) : Except Fault (List String × List Char) :=
  match _hs : skip isBlank s with
  | ']' :: t => .ok ([], t)
  | ',' :: t =>
    match _ht : skip isBlank t with
    | [] => truncated
    | ']' :: _ => malformed
    | c :: u => do
      let r ← readStringOf (c :: u)
      let (more, rest) ← readMoreStrings r.rest
      return (r.value :: more, rest)
  | [] => truncated
  | _ :: _ => malformed
termination_by s.length
decreasing_by
  have h₁ := Text.length_skip_le isBlank s
  have h₂ := Text.length_skip_le isBlank t
  have h₃ := r.shorter
  simp only [_hs, _ht, List.length_cons] at h₁ h₂ h₃
  omega

def readStrings (s : List Char) : Except Fault (List String × List Char) :=
  match skip isBlank s with
  | '[' :: t =>
    match skip isBlank t with
    | [] => truncated
    | ']' :: u => .ok ([], u)
    | u => do
      let (first, rest) ← readString u
      let (more, rest) ← readMoreStrings rest
      return (first :: more, rest)
  | t => refuse .sequence t

/-- Reads the value of a field. -/
def readField (field : Field ρ) (x : Filling ρ) (s : List Char) :
    Except Fault (Filling ρ × List Char) :=
  match field.access with
  | .boolean _ set => do
    let (value, rest) ← readBoolean s
    return (x.take field.key (set value x.record), rest)
  | .string _ set => do
    let (value, rest) ← readString s
    return (x.take field.key (set value x.record), rest)
  | .strings _ set => do
    let (value, rest) ← readStrings s
    return (x.take field.key (set value x.record), rest)

/-- The text after a key that is refused. The blanks behind the key are read before the refusal, and
so is a brace that closes the object there. -/
def afterRefusedKey (s : List Char) : List Char :=
  match skip isBlank s with
  | '}' :: t => t
  | t => t

/-- Reads a key, after its opening quote. A key that is not a field's is refused, and so is one that
was given before. -/
def readKey (R : Record ρ) (x : Filling ρ) (s : List Char) :
    Except Fault (Field ρ × List Char) := do
  let r ← ofSyntax (readLiteral s)
  let key := String.ofList r.value
  match R.field? key with
  | none => .error (.data (.unknownField key R.keys) (afterRefusedKey r.rest))
  | some field =>
    if field.key ∈ x.given then
      .error (.data (.duplicateField field.key) (afterRefusedKey r.rest))
    else return (field, r.rest)

def readColon (s : List Char) : Except Fault (List Char) :=
  match skip isBlank s with
  | ':' :: t => .ok t
  | [] => truncated
  | _ :: _ => malformed

def readMember (R : Record ρ) (x : Filling ρ) (s : List Char) :
    Except Fault (Filling ρ × List Char) := do
  let (field, rest) ← readKey R x s
  readField field x (← readColon rest)

/-- Reads the further members of an object, and its end. Every member gives another field, so after
as many members as there are fields any other is refused. -/
def readMoreMembers (R : Record ρ) (x : Filling ρ) (s : List Char) :
    Nat → Except Fault (Filling ρ × List Char)
  | 0 => malformed
  | n + 1 =>
    match skip isBlank s with
    | '}' :: t => .ok (x, t)
    | ',' :: t =>
      match skip isBlank t with
      | '"' :: u => do
        let (x, rest) ← readMember R x u
        readMoreMembers R x rest n
      | [] => truncated
      | _ :: _ => malformed
    | [] => truncated
    | _ :: _ => malformed

/-- Reads an object, after its opening brace. -/
def readObject (R : Record ρ) (s : List Char) : Except Fault (Filling ρ × List Char) :=
  match skip isBlank s with
  | '}' :: t => .ok (R.blank, t)
  | '"' :: t => do
    let (x, rest) ← readMember R R.blank t
    readMoreMembers R x rest (R.fields.length + 1)
  | [] => truncated
  | _ :: _ => malformed

def readClose (s : List Char) : Except Fault (List Char) :=
  match skip isBlank s with
  | ']' :: t => .ok t
  | [] => truncated
  | _ :: _ => malformed

/-- Reads the further elements of a positional document, and its end. -/
def readMoreElements (x : Filling ρ) (s : List Char) :
    List (Field ρ) → Except Fault (Filling ρ × List Char)
  | [] => do return (x, ← readClose s)
  | field :: fields =>
    match skip isBlank s with
    | ']' :: t => .ok (x, t)
    | ',' :: t =>
      match skip isBlank t with
      | [] => truncated
      | ']' :: _ => malformed
      | u => do
        let (x, rest) ← readField field x u
        readMoreElements x rest fields
    | [] => truncated
    | _ :: _ => malformed

/-- Reads the elements of a positional document, after its opening bracket. -/
def readArray (R : Record ρ) (s : List Char) : Except Fault (Filling ρ × List Char) :=
  match skip isBlank s with
  | [] => truncated
  | ']' :: t => .ok (R.blank, t)
  | t =>
    match R.fields with
    | [] => malformed
    | field :: fields => do
      let (x, rest) ← readField field R.blank t
      readMoreElements x rest fields

/-- Reads the value of a document. -/
def readTop (R : Record ρ) (s : List Char) : Except Fault (Filling ρ × List Char) :=
  match skip isBlank s with
  | '{' :: t => readObject R t
  | '[' :: t => readArray R t
  | t => refuse (.record R.name) t

def readDocument (R : Record ρ) (s : List Char) : Except Fault ρ := do
  let (x, rest) ← readTop R s
  match skip isBlank rest with
  | [] => return x.record
  | _ :: _ => malformed

/-- The place up to which a text was read, given the rest of it. -/
def positionBefore (s unread : List Char) : Position :=
  let read := s.take (s.length - unread.length)
  { line := 1 + read.count '\n',
    column := Text.utf8Length (read.reverse.takeWhile (· ≠ '\n')) }

def Fault.inText (s : List Char) : Fault → JsonFault
  | .data fault unread => .data fault (positionBefore s unread)
  | .form .malformed => .malformed
  | .form .truncated => .truncated

/-- How the value of a field is written; `pad` stands behind the commas of an array. -/
def valueText (pad : List Char) (field : Field ρ) (r : ρ) : List Char :=
  match field.access with
  | .boolean get _ => (if get r then "true" else "false").toList
  | .string get _ => literal (get r).toList
  | .strings get _ =>
    '[' :: ((',' :: pad).intercalate ((get r).map fun s => literal s.toList) ++ [']'])

/-- A member of an object, without blanks. -/
def memberText (r : ρ) (field : Field ρ) : List Char :=
  literal field.key.toList ++ ':' :: valueText [] field r

/-- The object of some fields of a record, in their order and without blanks. -/
def objectText (fields : List (Field ρ)) (r : ρ) : List Char :=
  '{' :: ([','].intercalate (fields.map (memberText r)) ++ ['}'])

def library : JsonLibrary where
  read R text :=
    match readDocument R text.toList with
    | .ok r => .ok r
    | .error fault => .error (fault.inText text.toList)
  write R r := String.ofList (objectText R.fields r)

end ReadBarrier.Json
