import InstallLocator.Number.Binary64

/-!
# The shortest decimal of a number

Of the decimals that round to a number, the text has the one with the fewest
digits, of those the nearest, and of two as near the larger. It is written
without an exponent, and always with a point.
-/

set_option autoImplicit false

namespace InstallLocator.Shortest

/-- The reals that round to a number, over a common denominator: the lower
end, the number, the upper end, and whether the ends belong to it. -/
structure Interval where
  low : Nat
  value : Nat
  high : Nat
  den : Nat
  closed : Bool

def interval (m : Nat) (e : Int) : Interval :=
  let unit := if 0 ≤ e then Nat.pow 2 e.toNat else 1
  let den := if 0 ≤ e then 4 else 4 * Nat.pow 2 (-e).toNat
  let below := if m = Nat.pow 2 52 ∧ Binary64.minExponent < e then 1 else 2
  ⟨(4 * m - below) * unit, 4 * m * unit, (4 * m + 2) * unit, den, m % 2 = 0⟩

structure Decimal where
  digits : Nat
  exponent : Int
deriving DecidableEq, Repr

def Decimal.scaled (d : Decimal) (bound den : Nat) : Nat × Nat :=
  if 0 ≤ d.exponent then (d.digits * Nat.pow 10 d.exponent.toNat * den, bound)
  else (d.digits * den, bound * Nat.pow 10 (-d.exponent).toNat)

def Interval.holds (i : Interval) (d : Decimal) : Bool :=
  let (a, low) := d.scaled i.low i.den
  let (b, high) := d.scaled i.high i.den
  if i.closed then low ≤ a && b ≤ high else low < a && b < high

def Interval.distance (i : Interval) (d : Decimal) : Nat :=
  let (a, v) := d.scaled i.value i.den
  (a - v) + (v - a)

def Interval.neighbours (i : Interval) (exponent : Int) : List Decimal :=
  let n := if 0 ≤ exponent then i.value / (i.den * Nat.pow 10 exponent.toNat)
    else i.value * Nat.pow 10 (-exponent).toNat / i.den
  [⟨n, exponent⟩, ⟨n + 1, exponent⟩]

def Interval.best (i : Interval) (exponent : Int) : Option Decimal :=
  match (i.neighbours exponent).filter i.holds with
  | [] => none
  | [d] => some d
  | d :: f :: _ => some (if i.distance f ≤ i.distance d then f else d)

/-- The largest power of ten not above the value, or one next to it. -/
def Interval.magnitude (i : Interval) : Int :=
  if i.den ≤ i.value then ((Nat.toDigits 10 (i.value / i.den)).length : Int) - 1
  else -((Nat.toDigits 10 (i.den / i.value)).length : Int)

def Interval.shortest (i : Interval) : Decimal :=
  let first := i.magnitude + 1
  ((List.range 20).findSome? fun (k : Nat) => i.best (first - k)).getD ⟨0, 0⟩

def Decimal.text (d : Decimal) : List Char :=
  let cs := Nat.toDigits 10 d.digits
  if 0 ≤ d.exponent then cs ++ List.replicate d.exponent.toNat '0' ++ ['.', '0']
  else
    let places := (-d.exponent).toNat
    let cs := List.replicate (places + 1 - cs.length) '0' ++ cs
    cs.take (cs.length - places) ++ '.' :: cs.drop (cs.length - places)

def sign (negative : Bool) : List Char := if negative then ['-'] else []

def text : Binary64 → String
  | .notANumber => "NaN"
  | .infinite negative => String.ofList (sign negative ++ ['i', 'n', 'f'])
  | .finite negative m e =>
    if m = 0 then String.ofList (sign negative ++ ['0', '.', '0'])
    else String.ofList (sign negative ++ (interval m e).shortest.text)

end InstallLocator.Shortest
