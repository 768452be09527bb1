/-!
What a reader returns: a value, and the rest of the text after it, which is shorter than the text.
-/

namespace ReadBarrier.Text

/-- A value read from the front of `s`. -/
structure Read (s : List Char) (α : Type) where
  value : α
  rest : List Char
  shorter : rest.length < s.length

namespace Read

variable {α β : Type} {s t : List Char}

/-- What one character stands for. -/
def before {c : Char} (rest : List Char) (value : α) : Read (c :: rest) α :=
  ⟨value, rest, Nat.lt_succ_self _⟩

/-- The same reading, of a longer text. -/
def widen (r : Read t α) (h : t.length ≤ s.length) : Read s α :=
  ⟨r.value, r.rest, Nat.lt_of_lt_of_le r.shorter h⟩

/-- A reading that goes on where `r` stopped. -/
def next (r : Read s α) (q : Read r.rest β) : Read s β :=
  q.widen (Nat.le_of_lt r.shorter)

/-- The same reading, of a text with one more character at its front. -/
def behind {c : Char} (r : Read t α) : Read (c :: t) α := r.widen (Nat.le_succ _)

def map (f : α → β) (r : Read s α) : Read s β := ⟨f r.value, r.rest, r.shorter⟩

end Read

/-- The text without the characters of a class at its front. -/
def skip (p : Char → Bool) (s : List Char) : List Char := s.dropWhile p

theorem length_skip_le (p : Char → Bool) (s : List Char) : (skip p s).length ≤ s.length :=
  (List.dropWhile_sublist p).length_le

def utf8Length : List Char → Nat
  | [] => 0
  | c :: s => c.utf8Size + utf8Length s

def hexDigit? (c : Char) : Option Nat :=
  if '0' ≤ c ∧ c ≤ '9' then some (c.toNat - '0'.toNat)
  else if 'a' ≤ c ∧ c ≤ 'f' then some (c.toNat - 'a'.toNat + 10)
  else if 'A' ≤ c ∧ c ≤ 'F' then some (c.toNat - 'A'.toNat + 10)
  else none

/-- The number that hexadecimal digits stand for. -/
def hexNumber? (digits : List Char) : Option Nat :=
  digits.foldlM (fun n c => (hexDigit? c).map (16 * n + ·)) 0

def decimalNumber (digits : List Char) : Nat :=
  digits.foldl (fun n c => 10 * n + (c.toNat - '0'.toNat)) 0

end ReadBarrier.Text
