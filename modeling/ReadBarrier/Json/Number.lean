import ReadBarrier.Json.Literal
import ReadBarrier.Library
import ReadBarrier.Text.Shortest

/-!
Numbers of JSON, and what they are read as: an integer, if the number is written as one and fits
into 64 bits, and otherwise a double.

A double is the significand, cut off before it exceeds 64 bits, times or divided by a power of ten,
each rounded on its own. A number too large for that is refused.
-/

namespace ReadBarrier.Json

open Text (Read)

inductive Number where
  | integer (value : Int)
  | double (value : Float)

/-- Where a decimal point may stand in a double that is written without an exponent. -/
def positional (point : Int) : Bool := -5 < point && point ≤ 16

def Number.found : Number → Found
  | .integer n => .integer n
  | .double x => .floating (Text.writeDouble positional x)

/-- Appends digits to a significand as long as it stays below `2 ^ 64`. Answers with the digits
left over, too. -/
def absorb (significand : Nat) : List Char → Nat × List Char
  | [] => (significand, [])
  | c :: rest =>
    let longer := 10 * significand + (c.toNat - '0'.toNat)
    if longer < 0x10000000000000000 then absorb longer rest else (significand, c :: rest)

def powerOfTen (n : Nat) : Float := Float.ofScientific 1 false n

/-- Scales a double by a power of ten, in steps that a double can hold. There is none if the result
is too large. -/
def scale (x : Float) (exponent : Int) : Nat → Option Float
  | 0 => some x
  | steps + 1 =>
    if exponent.natAbs ≤ 308 then
      if 0 ≤ exponent then
        let y := x * powerOfTen exponent.natAbs
        if y.isInf then none else some y
      else some (x / powerOfTen exponent.natAbs)
    else if x == 0 then some x
    else if 0 ≤ exponent then none
    else scale (x / powerOfTen 308) (exponent + 308) steps

structure Numeral where
  negative : Bool
  whole : List Char
  /-- The digits after the point, if there is one. -/
  fraction : Option (List Char)
  /-- The sign and the digits of the exponent, if there is one. -/
  exponent : Option (Bool × List Char)

/-- What a numeral is read as. There is nothing if it is too large for a double. -/
def Numeral.value? (n : Numeral) : Option Number :=
  let (high, spare) := absorb 0 n.whole
  let sign (x : Float) : Number := .double (if n.negative then -x else x)
  match n.fraction, n.exponent, spare with
  | none, none, [] =>
    if !n.negative then some (.integer high)
    else if 0 < high ∧ high ≤ 0x8000000000000000 then some (.integer (-high))
    else some (.double (-high.toFloat))
  | fraction, exponent, spare =>
    let digits := fraction.getD []
    let (significand, cut) := absorb high digits
    let places : Int := spare.length - (digits.length - cut.length : Int)
    match exponent with
    | none => (scale significand.toFloat places 8).map sign
    | some (negative, digits) =>
      let e := Text.decimalNumber digits
      if e < 0x80000000 then
        (scale significand.toFloat (if negative then places - e else places + e) 8).map sign
      else if significand ≠ 0 ∧ !negative then none
      else some (sign 0)

/-- The front of a text that is made of decimal digits, and the rest. -/
def digits (s : List Char) : List Char × List Char := s.span Char.isDigit

/-- Reads the digits of a point or an exponent, of which there must be one. -/
def readDigits (s : List Char) : Except SyntaxFault (List Char × List Char) :=
  match digits s with
  | ([], []) => .error .truncated
  | ([], _ :: _) => .error .malformed
  | found => .ok found

def readExponent : List Char → Except SyntaxFault (Option (Bool × List Char) × List Char)
  | c :: rest =>
    if c = 'e' ∨ c = 'E' then do
      let (negative, rest) := match rest with
        | '-' :: rest => (true, rest)
        | '+' :: rest => (false, rest)
        | rest => (false, rest)
      let (found, rest) ← readDigits rest
      return (some (negative, found), rest)
    else .ok (none, c :: rest)
  | [] => .ok (none, [])

def readFraction : List Char → Except SyntaxFault (Option (List Char) × List Char)
  | '.' :: rest => do
    let (found, rest) ← readDigits rest
    return (some found, rest)
  | s => .ok (none, s)

/-- Reads a numeral, after its sign. A whole part of more than one digit does not start with a
zero. -/
def readNumeral (negative : Bool) (s : List Char) :
    Except SyntaxFault (Numeral × List Char) := do
  let (whole, rest) ← readDigits s
  if whole.head? = some '0' ∧ 1 < whole.length then .error .malformed
  else
    let (fraction, rest) ← readFraction rest
    let (exponent, rest) ← readExponent rest
    return ({ negative, whole, fraction, exponent }, rest)

def readNumber (negative : Bool) (s : List Char) : Except SyntaxFault (Number × List Char) := do
  let (numeral, rest) ← readNumeral negative s
  match numeral.value? with
  | some n => return (n, rest)
  | none => .error .malformed

end ReadBarrier.Json
