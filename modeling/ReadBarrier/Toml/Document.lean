import ReadBarrier.Toml.Literal
import ReadBarrier.Toml.Scalar

/-!
Documents in TOML, version 1.1.

A document is read as a list of statements: assignments to dotted keys, and headers that say which
table the following assignments go to. The statements are then assembled into one table, which keeps
the order in which its keys came up. A key that is assigned twice, or a table that is defined twice
or extended from where it may not be, makes the whole text no document.
-/

namespace ReadBarrier.Toml

open Text (Read skip)

/-- How a table came up, which decides who may extend it. -/
inductive Making where
  /-- By a header of its own. -/
  | header
  /-- On the way to the table of a header. -/
  | implied
  /-- By a dotted key. -/
  | dotted
  /-- In braces. -/
  | braces
  deriving DecidableEq

inductive Item where
  | string (value : String)
  | scalar (value : Scalar)
  | array (items : List Item)
  | table (making : Making) (entries : List (String × Item))
  /-- An array of tables that headers opened one by one. -/
  | tables (elements : List (List (String × Item)))

/-- The entries of a table, in the order in which their keys came up. -/
abbrev Entries := List (String × Item)

namespace Entries

def get? (entries : Entries) (key : String) : Option Item :=
  (entries.find? (·.1 == key)).map (·.2)

/-- The entries with another item in the place of a key. -/
def replace (entries : Entries) (key : String) (item : Item) : Entries :=
  entries.map fun (k, old) => if k == key then (k, item) else (k, old)

/-- Assigns to a dotted key. It may lead through tables that dotted keys or longer headers brought
up, and must end at a key not used yet. -/
def assign (item : Item) : List String → Entries → Option Entries
  | [], _ => none
  | [key], entries =>
    match get? entries key with
    | none => some (entries ++ [(key, item)])
    | some _ => none
  | key :: path, entries =>
    match get? entries key with
    | none => do return entries ++ [(key, .table .dotted (← assign item path []))]
    | some (.table making inner) =>
      if making = .dotted ∨ making = .implied then do
        return replace entries key (.table making (← assign item path inner))
      else none
    | some _ => none

def inLast (f : Entries → Option Entries) : List Entries → Option (List Entries)
  | [] => none
  | [last] => do return [← f last]
  | first :: rest => do return first :: (← inLast f rest)

/-- Follows the path of a header, through the last table of each array of tables, and applies `f`
where it ends. Tables on the way come up if they are missing; those in braces are closed. -/
def along (f : String → Entries → Option Entries) : List String → Entries → Option Entries
  | [], _ => none
  | [key], entries => f key entries
  | key :: path, entries =>
    match get? entries key with
    | none => do return entries ++ [(key, .table .implied (← along f path []))]
    | some (.table making inner) =>
      if making = .braces then none
      else do return replace entries key (.table making (← along f path inner))
    | some (.tables elements) => do
      return replace entries key (.tables (← inLast (along f path) elements))
    | some _ => none

/-- Opens the table of a header. It may have come up on the way to another one, but not as a table
in its own right. -/
def openTable : List String → Entries → Option Entries :=
  along fun key entries =>
    match get? entries key with
    | none => some (entries ++ [(key, .table .header [])])
    | some (.table .implied inner) => some (replace entries key (.table .header inner))
    | some _ => none

/-- Opens the next table of an array of tables. -/
def openElement : List String → Entries → Option Entries :=
  along fun key entries =>
    match get? entries key with
    | none => some (entries ++ [(key, .tables [[]])])
    | some (.tables elements) => some (replace entries key (.tables (elements ++ [[]])))
    | some _ => none

/-- Applies `f` to the table that a header opened. -/
def inside (f : Entries → Option Entries) (path : List String) (entries : Entries) :
    Option Entries :=
  if path.isEmpty then f entries
  else along (fun key entries =>
    match get? entries key with
    | some (.table making inner) => do return replace entries key (.table making (← f inner))
    | some (.tables elements) => do return replace entries key (.tables (← inLast f elements))
    | _ => none) path entries

end Entries

inductive Statement where
  | assign (path : List String) (item : Item)
  | table (path : List String)
  | element (path : List String)

/-- Assembles the statements of a document; `path` is the table that the assignments go to. -/
def assemble (path : List String) (entries : Entries) : List Statement → Option Entries
  | [] => some entries
  | .assign key item :: rest => do
    assemble path (← entries.inside (Entries.assign item key) path) rest
  | .table header :: rest => do assemble header (← entries.openTable header) rest
  | .element header :: rest => do assemble header (← entries.openElement header) rest

/-- The rest of a text, which is not longer. -/
abbrev Rest (s : List Char) := { rest : List Char // rest.length ≤ s.length }

/-- The text from the end of a comment on. A line may hold no control characters. -/
def afterComment : (s : List Char) → Option (Rest s)
  | [] => some ⟨[], Nat.zero_le _⟩
  | '\n' :: t => some ⟨'\n' :: t, Nat.le_refl _⟩
  | '\r' :: '\n' :: t => some ⟨'\r' :: '\n' :: t, Nat.le_refl _⟩
  | c :: t =>
    if isAllowed c then (afterComment t).map fun r => ⟨r.1, Nat.le_succ_of_le r.2⟩ else none

/-- The text after blanks, comments and line ends. -/
def afterSpace (s : List Char) : Option (Rest s) :=
  match s with
  | [] => some ⟨[], Nat.zero_le _⟩
  | '\r' :: '\n' :: t => (afterSpace t).map fun r => ⟨r.1, by
      have := r.2
      simp only [List.length_cons]
      omega⟩
  | '#' :: t => do
    let r ← afterComment t
    let q ← afterSpace r.1
    return ⟨q.1, Nat.le_succ_of_le (Nat.le_trans q.2 r.2)⟩
  | c :: t =>
    if isBlank c || c = '\n' then
      (afterSpace t).map fun r => ⟨r.1, Nat.le_succ_of_le r.2⟩
    else some ⟨c :: t, Nat.le_refl _⟩
termination_by s.length
decreasing_by
  · simp only [List.length_cons]
    omega
  · have := r.2
    simp only [List.length_cons]
    omega
  · simp

/-- The text after the end of a line, before which only a comment may stand. -/
def afterLine (s : List Char) : Option (Rest s) :=
  have hs := Text.length_skip_le isBlank s
  match h : skip isBlank s with
  | [] => some ⟨[], Nat.zero_le _⟩
  | '\n' :: t => some ⟨t, by simp only [h, List.length_cons] at hs; omega⟩
  | '\r' :: '\n' :: t => some ⟨t, by simp only [h, List.length_cons] at hs; omega⟩
  | '#' :: t => do
    match h' : ← afterComment t with
    | ⟨[], _⟩ => some ⟨[], Nat.zero_le _⟩
    | ⟨'\n' :: u, hu⟩ => some ⟨u, by simp only [h, List.length_cons] at hs hu; omega⟩
    | ⟨'\r' :: u, hu⟩ => some ⟨u.drop 1, by
        simp only [h, List.length_cons, List.length_drop] at hs hu ⊢; omega⟩
    | _ => none
  | _ => none

def isBare (c : Char) : Bool := c.isAlphanum || c = '_' || c = '-'

def readKeyPart (s : List Char) : Option (Read s String) :=
  match s with
  | '"' :: t => (readBasic t).map fun r => (r.map String.ofList).behind
  | '\'' :: t => (readPlain t).map fun r => (r.map String.ofList).behind
  | c :: t =>
    if isBare c then
      some ⟨String.ofList (c :: t.takeWhile isBare), t.dropWhile isBare, by
        have := (List.dropWhile_sublist (l := t) isBare).length_le
        simp only [List.length_cons]
        omega⟩
    else none
  | [] => none

/-- Reads a key, whose parts have dots between them, and the blanks after it. -/
def readKey (s : List Char) : Option (Read s (List String)) := do
  let first ← readKeyPart s
  match h : skip isBlank first.rest with
  | '.' :: t =>
    let more ← readKey (skip isBlank t)
    return ⟨first.value :: more.value, more.rest, by
      have h₁ := first.shorter
      have h₂ := Text.length_skip_le isBlank first.rest
      have h₃ := Text.length_skip_le isBlank t
      have h₄ := more.shorter
      simp only [h, List.length_cons] at h₂
      omega⟩
  | t => return ⟨[first.value], t, by
      have h₁ := first.shorter
      have h₂ := Text.length_skip_le isBlank first.rest
      rw [h] at h₂
      omega⟩
termination_by s.length
decreasing_by
  have h₁ := first.shorter
  have h₂ := Text.length_skip_le isBlank first.rest
  have h₃ := Text.length_skip_le isBlank t
  simp only [h, List.length_cons] at h₂
  omega

def isScalarPart (c : Char) : Bool :=
  c.isAlphanum || c = '_' || c = '-' || c = '+' || c = '.' || c = ':'

/-- The text of a value without quotes, and the rest. A date takes the time after a blank with
it. -/
def scalarText (s : List Char) : List Char × List Char :=
  match s.span isScalarPart with
  | (date, ' ' :: c :: t) =>
    if readDate date = some [] ∧ c.isDigit then
      let (time, rest) := (c :: t).span isScalarPart
      (date ++ ' ' :: time, rest)
    else (date, ' ' :: c :: t)
  | found => found

def readScalar (s : List Char) : Option (Read s Item) := do
  let (text, rest) := scalarText s
  if h : rest.length < s.length then return ⟨.scalar (← scalarOf? text), rest, h⟩ else none

mutual

def readItem (s : List Char) : Option (Read s Item) :=
  match s with
  | [] => none
  | '[' :: t => (readItems t).map fun r => (r.map .array).behind
  | '{' :: t => do
    let r ← readPairs t
    let entries ← r.value.foldlM (fun entries (path, item) => Entries.assign item path entries) []
    return (r.map fun _ => .table .braces entries).behind
  | c :: t =>
    if c = '"' ∨ c = '\'' then (readString (c :: t)).map (·.map .string) else readScalar (c :: t)
termination_by (s.length, 0)
decreasing_by
  all_goals
    simp only [Prod.lex_def, List.length_cons]
    omega

def readItems (s : List Char) : Option (Read s (List Item)) := do
  let start ← afterSpace s
  match h : start.1 with
  | ']' :: t => return ⟨[], t, by have := start.2; simp only [h, List.length_cons] at this; omega⟩
  | u =>
    have hu : u.length ≤ s.length := by have := start.2; rw [h] at this; exact this
    let first ← readItem u
    let gap ← afterSpace first.rest
    match hg : gap.1 with
    | ',' :: t =>
      have ht : t.length < s.length := by
        have h₁ := gap.2
        have h₂ := first.shorter
        simp only [hg, List.length_cons] at h₁
        omega
      let more ← readItems t
      return ⟨first.value :: more.value, more.rest, Nat.lt_trans more.shorter ht⟩
    | ']' :: t => return ⟨[first.value], t, by
        have h₁ := gap.2
        have h₂ := first.shorter
        simp only [hg, List.length_cons] at h₁
        omega⟩
    | _ => none
termination_by (s.length, 1)
decreasing_by
  all_goals
    simp only [Prod.lex_def]
    omega

def readPairs (s : List Char) : Option (Read s (List (List String × Item))) := do
  let start ← afterSpace s
  match h : start.1 with
  | '}' :: t => return ⟨[], t, by have := start.2; simp only [h, List.length_cons] at this; omega⟩
  | u =>
    have hu : u.length ≤ s.length := by have := start.2; rw [h] at this; exact this
    let key ← readKey u
    match hk : key.rest with
    | '=' :: t =>
      have ht : (skip isBlank t).length < s.length := by
        have h₁ := Text.length_skip_le isBlank t
        have h₂ := key.shorter
        simp only [hk, List.length_cons] at h₂
        omega
      let item ← readItem (skip isBlank t)
      let gap ← afterSpace item.rest
      match hg : gap.1 with
      | ',' :: v =>
        have hv : v.length < s.length := by
          have h₁ := gap.2
          have h₂ := item.shorter
          simp only [hg, List.length_cons] at h₁
          omega
        let more ← readPairs v
        return ⟨(key.value, item.value) :: more.value, more.rest, Nat.lt_trans more.shorter hv⟩
      | '}' :: v => return ⟨[(key.value, item.value)], v, by
          have h₁ := gap.2
          have h₂ := item.shorter
          simp only [hg, List.length_cons] at h₁
          omega⟩
      | _ => none
    | _ => none
termination_by (s.length, 1)
decreasing_by
  all_goals
    simp only [Prod.lex_def]
    omega

end

/-- Reads the header of a table, after its opening brackets; `closing` is what ends it. -/
def readHeader (closing : List Char) (s : List Char) : Option (Read s (List String)) := do
  let key ← readKey (skip isBlank s)
  if closing.isPrefixOf key.rest then
    return ⟨key.value, key.rest.drop closing.length, by
      have h₁ := key.shorter
      have h₂ := Text.length_skip_le isBlank s
      simp only [List.length_drop]
      omega⟩
  else none

def readAssignment (s : List Char) : Option (Read s Statement) := do
  let key ← readKey s
  match h : key.rest with
  | '=' :: t =>
    let item ← readItem (skip isBlank t)
    return ⟨.assign key.value item.value, item.rest, by
      have h₁ := key.shorter
      have h₂ := Text.length_skip_le isBlank t
      have h₃ := item.shorter
      simp only [h, List.length_cons] at h₁
      omega⟩
  | _ => none

/-- Reads a statement, without the end of its line. -/
def readStatement (s : List Char) : Option (Read s Statement) :=
  match s with
  | '[' :: '[' :: t =>
    (readHeader [']', ']'] t).map fun r => (r.map .element).behind.behind
  | '[' :: t => (readHeader [']'] t).map fun r => (r.map .table).behind
  | s => readAssignment s

def readStatements (s : List Char) : Option (List Statement) := do
  let start ← afterSpace s
  if start.1.isEmpty then some []
  else
    let statement ← readStatement start.1
    let line ← afterLine statement.rest
    return statement.value :: (← readStatements line.1)
termination_by s.length
decreasing_by
  exact Nat.lt_of_le_of_lt line.2 (Nat.lt_of_lt_of_le statement.shorter start.2)

/-- The entries of a document. A byte order mark may stand in front of it. -/
def readDocument (s : List Char) : Option Entries := do
  let s := match s with
    | '\uFEFF' :: t => t
    | t => t
  assemble [] [] (← readStatements s)

end ReadBarrier.Toml
