import ReadBarrier.Text.Read

/-!
String literals of JSON: how a text is written as one, and how one is read.

Every text has a literal, and reading it gives the text back. A literal may also spell characters
by their numbers, in UTF-16; halves of a surrogate pair must then stand together and in order.
-/

namespace ReadBarrier.Json

open Text (Read)

/-- Why a text is not JSON: it goes wrong somewhere, or it ends too early. -/
inductive SyntaxFault where
  | malformed
  | truncated
  deriving DecidableEq

/-- How a character is written inside a literal: quotes, backslashes and control characters are
escaped, all else stands for itself. -/
def encodeChar (c : Char) : List Char :=
  match c with
  | '"' => ['\\', '"']
  | '\\' => ['\\', '\\']
  | '\x08' => ['\\', 'b']
  | '\x0c' => ['\\', 'f']
  | '\n' => ['\\', 'n']
  | '\r' => ['\\', 'r']
  | '\t' => ['\\', 't']
  | c =>
    if c.toNat < 0x20 then
      ['\\', 'u', '0', '0', Nat.digitChar (c.toNat / 16), Nat.digitChar (c.toNat % 16)]
    else [c]

def literal (s : List Char) : List Char := '"' :: s.flatMap encodeChar ++ ['"']

/-- Reads four hexadecimal digits. Fewer than four bytes of text are too few; otherwise whatever is
not a digit is wrong. -/
def readQuad : (s : List Char) → Except SyntaxFault (Read s Nat)
  | a :: b :: c :: d :: rest =>
    match Text.hexNumber? [a, b, c, d] with
    | some n => .ok ⟨n, rest, by simp only [List.length_cons]; omega⟩
    | none => .error .malformed
  | s => .error (if Text.utf8Length s < 4 then .truncated else .malformed)

/-- Reads a character by its number in UTF-16, after `\u`. -/
def readNumbered (s : List Char) : Except SyntaxFault (Read s Char) := do
  let high ← readQuad s
  if 0xDC00 ≤ high.value ∧ high.value ≤ 0xDFFF then .error .malformed
  else if 0xD800 ≤ high.value ∧ high.value ≤ 0xDBFF then
    match h : high.rest with
    | '\\' :: 'u' :: t =>
      let low ← readQuad t
      if 0xDC00 ≤ low.value ∧ low.value ≤ 0xDFFF then
        let n := 0x10000 + (high.value - 0xD800) * 0x400 + (low.value - 0xDC00)
        .ok ⟨Char.ofNat n, low.rest, by
          have h₁ := high.shorter
          have h₂ := low.shorter
          simp only [h, List.length_cons] at h₁
          omega⟩
      else .error .malformed
    | [] | ['\\'] => .error .truncated
    | _ => .error .malformed
  else return high.map Char.ofNat

/-- Reads the rest of an escape, after its backslash. -/
def readEscape : (s : List Char) → Except SyntaxFault (Read s Char)
  | [] => .error .truncated
  | '"' :: rest => .ok (.before rest '"')
  | '\\' :: rest => .ok (.before rest '\\')
  | '/' :: rest => .ok (.before rest '/')
  | 'b' :: rest => .ok (.before rest '\x08')
  | 'f' :: rest => .ok (.before rest '\x0c')
  | 'n' :: rest => .ok (.before rest '\n')
  | 'r' :: rest => .ok (.before rest '\r')
  | 't' :: rest => .ok (.before rest '\t')
  | 'u' :: rest => (readNumbered rest).map (·.behind)
  | _ :: _ => .error .malformed

/-- Reads the rest of a literal, after its opening quote. -/
def readLiteral (s : List Char) : Except SyntaxFault (Read s (List Char)) :=
  match s with
  | [] => .error .truncated
  | '"' :: rest => .ok (.before rest [])
  | '\\' :: t => do
    let c ← readEscape t
    let tail ← readLiteral c.rest
    return (c.next (tail.map (c.value :: ·))).behind
  | c :: t =>
    if c.toNat < 0x20 then .error .malformed
    else do
      let tail ← readLiteral t
      return (tail.map (c :: ·)).behind
termination_by s.length
decreasing_by
  · have := c.shorter
    simp only [List.length_cons]
    omega
  · simp

end ReadBarrier.Json
