import ReadBarrier.Text.Read
import ReadBarrier.Text.Shortest

/-!
Numbers, truth values, dates and times of TOML, each given as the whole of its text.
-/

namespace ReadBarrier.Toml

/-- A value without parts, other than a string. -/
inductive Scalar where
  | boolean (value : Bool)
  | integer (value : Int)
  | floating (value : Float)
  /-- A date, a time or both. -/
  | moment

/-- The digits of a number, without the underscores. Those stand one by one between digits. -/
def plainDigits? (isDigit : Char → Bool) : List Char → Option (List Char)
  | [] => none
  | [c] => if isDigit c then some [c] else none
  | c :: '_' :: t => if isDigit c then (plainDigits? isDigit t).map (c :: ·) else none
  | c :: t => if isDigit c then (plainDigits? isDigit t).map (c :: ·) else none

/-- Decimal digits without a leading zero. -/
def wholeDigits? (s : List Char) : Option (List Char) := do
  let digits ← plainDigits? Char.isDigit s
  if digits.head? = some '0' ∧ 1 < digits.length then none else digits

/-- The sign of a number, whether it is negative, and the text after it. -/
def sign (s : List Char) : Bool × List Char :=
  match s with
  | '-' :: t => (true, t)
  | '+' :: t => (false, t)
  | t => (false, t)

/-- An integer that 64 bits with a sign can hold. -/
def fitting? (n : Int) : Option Int :=
  if -0x8000000000000000 ≤ n ∧ n < 0x8000000000000000 then some n else none

/-- The number that the digits of a base stand for. -/
def based? (base : Nat) (s : List Char) : Option Int := do
  let isDigit (c : Char) : Bool := match Text.hexDigit? c with
    | some d => d < base
    | none => false
  let digits ← plainDigits? isDigit s
  fitting? (digits.foldl (fun n c => base * n + (Text.hexDigit? c).getD 0) 0 : Nat)

def integer? (s : List Char) : Option Int :=
  match s with
  | '0' :: 'x' :: t => based? 16 t
  | '0' :: 'o' :: t => based? 8 t
  | '0' :: 'b' :: t => based? 2 t
  | s => do
    let (negative, t) := sign s
    let n := Text.decimalNumber (← wholeDigits? t)
    fitting? (if negative then -n else n)

/-- The double nearest to `mantissa * 10 ^ exponent`, if it is finite. -/
def double? (mantissa : Nat) (exponent : Int) : Option Float :=
  let magnitude : Int := (Nat.toDigits 10 mantissa).length + exponent
  if mantissa = 0 ∨ magnitude < -400 then some 0
  else if 400 < magnitude then none
  else
    let x := Float.ofScientific mantissa (exponent < 0) exponent.natAbs
    if x.isInf then none else some x

def exponent? (s : List Char) : Option Int := do
  let (negative, t) := sign s
  let n := Text.decimalNumber (← plainDigits? Char.isDigit t)
  return if negative then -n else n

def floating? (s : List Char) : Option Float := do
  let (negative, t) := sign s
  let x ← match t with
    | ['i', 'n', 'f'] => some (1.0 / 0.0)
    | ['n', 'a', 'n'] => some (0.0 / 0.0)
    | t => do
      let isExponent (c : Char) : Bool := c = 'e' || c = 'E'
      let (mantissa, tail) := t.span fun c => !isExponent c
      let (whole, point) := mantissa.span (· ≠ '.')
      let whole ← wholeDigits? whole
      let fraction ← match point with
        | [] => some []
        | _ :: digits => plainDigits? Char.isDigit digits
      let exponent ← match tail with
        | [] => if point.isEmpty then none else some 0
        | _ :: digits => exponent? digits
      double? (Text.decimalNumber (whole ++ fraction)) (exponent - fraction.length)
  return if negative then -x else x

/-- Reads a number of exactly so many digits, between two bounds. -/
def readField (count low high : Nat) (s : List Char) : Option (Nat × List Char) :=
  let digits := s.take count
  let n := Text.decimalNumber digits
  if digits.length = count ∧ digits.all Char.isDigit ∧ low ≤ n ∧ n ≤ high then
    some (n, s.drop count)
  else none

def readMark (mark : Char) : List Char → Option (List Char)
  | c :: t => if c = mark then some t else none
  | [] => none

def monthLength (year month : Nat) : Nat :=
  if month = 2 then
    if year % 4 = 0 ∧ (year % 100 ≠ 0 ∨ year % 400 = 0) then 29 else 28
  else if month = 4 ∨ month = 6 ∨ month = 9 ∨ month = 11 then 30 else 31

/-- Reads a date, such as `1979-05-27`. -/
def readDate (s : List Char) : Option (List Char) := do
  let (year, s) ← readField 4 0 9999 s
  let (month, s) ← readField 2 1 12 (← readMark '-' s)
  let (_, s) ← readField 2 1 (monthLength year month) (← readMark '-' s)
  return s

/-- Reads a time, such as `07:32:00.5`. The seconds may be missing. -/
def readTime (s : List Char) : Option (List Char) := do
  let (_, s) ← readField 2 0 23 s
  let (_, s) ← readField 2 0 59 (← readMark ':' s)
  match s with
  | ':' :: t =>
    let (_, t) ← readField 2 0 60 t
    match t with
    | '.' :: u =>
      let (digits, rest) := u.span Char.isDigit
      if digits.isEmpty then none else some rest
    | t => some t
  | s => some s

/-- Reads an offset from universal time, such as `Z` or `-07:00`. -/
def readOffset (s : List Char) : Option (List Char) :=
  match s with
  | 'Z' :: t | 'z' :: t => some t
  | '+' :: t | '-' :: t => do
    let (_, t) ← readField 2 0 23 t
    let (_, t) ← readField 2 0 59 (← readMark ':' t)
    return t
  | _ => none

def isMoment (s : List Char) : Bool :=
  match readDate s with
  | some [] => true
  | some (c :: t) =>
    (c = 'T' || c = 't' || c = ' ') && match readTime t with
      | some [] => true
      | some u => readOffset u == some []
      | none => false
  | none => readTime s == some []

def scalarOf? (s : List Char) : Option Scalar :=
  if s = "true".toList then some (.boolean true)
  else if s = "false".toList then some (.boolean false)
  else if isMoment s then some .moment
  else (integer? s).map .integer <|> (floating? s).map .floating

end ReadBarrier.Toml
