/-!
Floating-point numbers in decimal digits.

A finite double stands for all reals that round to it. Of the decimals among those, the shortest
are chosen, and of the shortest the one nearest to the double.
-/

namespace ReadBarrier.Text

/-- The number `digits * 10 ^ exponent`. -/
structure Decimal where
  digits : Nat
  exponent : Int

/-- A positive double `m * 2 ^ q`, with the reals that round to it: from `4 * m - below` quarters
of `2 ^ q` to `4 * m + 2` of them, the ends included if `m` is even. -/
structure Double where
  m : Nat
  q : Int
  below : Nat

namespace Double

/-- The magnitude of a finite double, from its bits: the lowest 52 are the fraction, the 11 above
them the exponent. -/
def ofBits (bits : UInt64) : Double :=
  let fraction : Nat := bits.toNat % 0x10000000000000
  let field : Nat := bits.toNat / 0x10000000000000 % 0x800
  if field = 0 then { m := fraction, q := -1074, below := 2 }
  else
    { m := 0x10000000000000 + fraction, q := (field : Int) - 1075,
      below := if fraction = 0 ∧ 1 < field then 1 else 2 }

/-- `quarters` quarters of `2 ^ q` as a fraction with the unit `10 ^ k`. -/
def scaled (d : Double) (k : Int) (quarters : Nat) : Nat × Nat :=
  let e := d.q - 2
  (quarters * Nat.pow 2 e.toNat * Nat.pow 10 (-k).toNat,
    Nat.pow 2 (-e).toNat * Nat.pow 10 k.toNat)

/-- Whether `n * 10 ^ k` rounds to the double. -/
def covers (d : Double) (k : Int) (n : Nat) : Bool :=
  let (low, den) := d.scaled k (4 * d.m - d.below)
  let (high, _) := d.scaled k (4 * d.m + 2)
  let value := n * den
  if d.m % 2 = 0 then low ≤ value && value ≤ high else low < value && value < high

/-- The multiple of `10 ^ k` nearest to the double, of those that round to it. -/
def nearest? (d : Double) (k : Int) : Option Nat :=
  let (num, den) := d.scaled k (4 * d.m)
  let n := num / den
  let up := 2 * (num - n * den) > den || (2 * (num - n * den) == den && n % 2 == 1)
  let order := if up then [n + 1, n] else [n, n + 1]
  order.find? (d.covers k)

/-- The least exponent `e` with the double below `10 ^ e`. -/
def magnitude (d : Double) : Int :=
  let below (e : Int) : Bool := let (num, den) := d.scaled e (4 * d.m); num < den
  (((List.range 640).map fun i : Nat => (i : Int) - 325).find? below).getD 310

/-- The shortest decimal that rounds to the double. -/
def shortest (d : Double) : Decimal :=
  let e := d.magnitude
  let found := (List.range 18).findSome? fun i : Nat =>
    (d.nearest? (e - i)).bind fun n => if n = 0 then none else some (Decimal.mk n (e - i))
  found.getD ⟨0, 0⟩

end Double

/-- Writes `digits * 10 ^ exponent`: positionally if `positional` says so of the place of the
decimal point, counted from the first digit, and otherwise with an exponent. -/
def Decimal.write (positional : Int → Bool) (d : Decimal) : String :=
  let digits := Nat.toDigits 10 d.digits
  let point : Int := digits.length + d.exponent
  if positional point then
    if 0 ≤ d.exponent then
      String.ofList digits ++ String.ofList (List.replicate d.exponent.toNat '0') ++ ".0"
    else if 0 < point then
      String.ofList (digits.take point.toNat) ++ "." ++ String.ofList (digits.drop point.toNat)
    else "0." ++ String.ofList (List.replicate (-point).toNat '0') ++ String.ofList digits
  else
    match digits with
    | [d] => s!"{d}e{point - 1}"
    | d :: rest => s!"{d}." ++ String.ofList rest ++ s!"e{point - 1}"
    | [] => ""

/-- Writes a double. Numbers without a fraction keep the zero after their point. -/
def writeDouble (positional : Int → Bool) (x : Float) : String :=
  let minus := if x.toBits ≥ 0x8000000000000000 then "-" else ""
  if x.isNaN then "NaN"
  else if x.isInf then minus ++ "inf"
  else if x == 0 then minus ++ "0.0"
  else minus ++ (Double.ofBits x.toBits).shortest.write positional

end ReadBarrier.Text
