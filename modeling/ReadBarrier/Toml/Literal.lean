import ReadBarrier.Text.Read

/-!
String literals of TOML: basic and literal ones, on one line or on several.

Every reader starts after the opening quotes.
-/

namespace ReadBarrier.Toml

open Text (Read skip)

/-- Whether a character may stand in a comment or a string: all but control characters, of which
only the tab may. -/
def isAllowed (c : Char) : Bool := c = '\t' || (0x20 ≤ c.toNat && c.toNat ≠ 0x7F)

def isBlank (c : Char) : Bool := c = ' ' || c = '\t'

/-- Blanks and line ends. A carriage return that stands alone is none; it is found later. -/
def isSpace (c : Char) : Bool := isBlank c || c = '\n' || c = '\r'

def scalar? (n : Nat) : Option Char := if n.isValidChar then some (Char.ofNat n) else none

/-- Reads a character by its number, of so many hexadecimal digits. -/
def readNumbered (count : Nat) (s : List Char) : Option (Read s Char) :=
  if h : count ≤ s.length ∧ 0 < count then do
    let n ← Text.hexNumber? (s.take count)
    let c ← scalar? n
    return ⟨c, s.drop count, by simp only [List.length_drop]; omega⟩
  else none

def readEscape : (s : List Char) → Option (Read s Char)
  | 'b' :: rest => some (.before rest '\x08')
  | 't' :: rest => some (.before rest '\t')
  | 'n' :: rest => some (.before rest '\n')
  | 'f' :: rest => some (.before rest '\x0c')
  | 'r' :: rest => some (.before rest '\r')
  | 'e' :: rest => some (.before rest '\x1b')
  | '"' :: rest => some (.before rest '"')
  | '\\' :: rest => some (.before rest '\\')
  | 'x' :: rest => (readNumbered 2 rest).map (·.behind)
  | 'u' :: rest => (readNumbered 4 rest).map (·.behind)
  | 'U' :: rest => (readNumbered 8 rest).map (·.behind)
  | _ => none

/-- Reads the rest of a basic string. -/
def readBasic (s : List Char) : Option (Read s (List Char)) :=
  match s with
  | [] => none
  | '"' :: rest => some (.before rest [])
  | '\\' :: t => do
    let c ← readEscape t
    let tail ← readBasic c.rest
    return (c.next (tail.map (c.value :: ·))).behind
  | c :: t =>
    if isAllowed c then do
      let tail ← readBasic t
      return (tail.map (c :: ·)).behind
    else none
termination_by s.length
decreasing_by
  · have := c.shorter
    simp only [List.length_cons]
    omega
  · simp

def readPlain : (s : List Char) → Option (Read s (List Char))
  | [] => none
  | '\'' :: rest => some (.before rest [])
  | c :: t =>
    if isAllowed c then do
      let tail ← readPlain t
      return (tail.map (c :: ·)).behind
    else none

/-- Whether a text goes on, after blanks, with the end of a line. -/
def endsLine (s : List Char) : Bool :=
  match skip isBlank s with
  | '\n' :: _ | '\r' :: '\n' :: _ => true
  | _ => false

/-- Reads the rest of a basic string on several lines. Line ends are read as line feeds. A backslash
at the end of a line joins it to the next text. Up to two quotes may stand before the closing
ones. -/
def readBasicBlock (s : List Char) : Option (Read s (List Char)) :=
  match s with
  | [] => none
  | '"' :: '"' :: '"' :: '"' :: '"' :: rest =>
    some (Read.before rest ['"', '"']).behind.behind.behind.behind
  | '"' :: '"' :: '"' :: '"' :: rest => some (Read.before rest ['"']).behind.behind.behind
  | '"' :: '"' :: '"' :: rest => some (Read.before rest []).behind.behind
  | '\\' :: t =>
    if endsLine t then do
      let tail ← readBasicBlock (skip isSpace t)
      return tail.widen (Nat.le_succ_of_le (Text.length_skip_le _ _))
    else do
      let c ← readEscape t
      let tail ← readBasicBlock c.rest
      return (c.next (tail.map (c.value :: ·))).behind
  | '\r' :: '\n' :: t => do
    let tail ← readBasicBlock t
    return (tail.map ('\n' :: ·)).behind.behind
  | c :: t =>
    if isAllowed c || c = '\n' then do
      let tail ← readBasicBlock t
      return (tail.map (c :: ·)).behind
    else none
termination_by s.length
decreasing_by
  · have := Text.length_skip_le isSpace t
    simp only [List.length_cons]
    omega
  · have := c.shorter
    simp only [List.length_cons]
    omega
  · simp only [List.length_cons]
    omega
  · simp

def readPlainBlock : (s : List Char) → Option (Read s (List Char))
  | [] => none
  | '\'' :: '\'' :: '\'' :: '\'' :: '\'' :: rest =>
    some (Read.before rest ['\'', '\'']).behind.behind.behind.behind
  | '\'' :: '\'' :: '\'' :: '\'' :: rest => some (Read.before rest ['\'']).behind.behind.behind
  | '\'' :: '\'' :: '\'' :: rest => some (Read.before rest []).behind.behind
  | '\r' :: '\n' :: t => do
    let tail ← readPlainBlock t
    return (tail.map ('\n' :: ·)).behind.behind
  | c :: t =>
    if isAllowed c || c = '\n' then do
      let tail ← readPlainBlock t
      return (tail.map (c :: ·)).behind
    else none

/-- The text after a line end that directly follows the opening quotes of a block. -/
def afterOpening : List Char → List Char
  | '\n' :: t => t
  | '\r' :: '\n' :: t => t
  | s => s

theorem length_afterOpening_le (s : List Char) : (afterOpening s).length ≤ s.length := by
  unfold afterOpening
  split
  · simp
  · simp only [List.length_cons]
    omega
  · exact Nat.le_refl _

/-- Reads a string of any kind, with its quotes. -/
def readString : (s : List Char) → Option (Read s String)
  | '"' :: '"' :: '"' :: t =>
    (readBasicBlock (afterOpening t)).map fun r => (r.map String.ofList).widen
      (Nat.le_trans (length_afterOpening_le t) (by simp only [List.length_cons]; omega))
  | '"' :: t => (readBasic t).map fun r => (r.map String.ofList).behind
  | '\'' :: '\'' :: '\'' :: t =>
    (readPlainBlock (afterOpening t)).map fun r => (r.map String.ofList).widen
      (Nat.le_trans (length_afterOpening_le t) (by simp only [List.length_cons]; omega))
  | '\'' :: t => (readPlain t).map fun r => (r.map String.ofList).behind
  | _ => none

end ReadBarrier.Toml
