/-!
# Binary numbers of 64 bits

A finite number is a mantissa below 2^53 times a power of two not below
2^-1074. A ratio is rounded to the nearest of them, a tie to the even mantissa.
-/

set_option autoImplicit false

namespace InstallLocator

inductive Binary64
  | finite (negative : Bool) (mantissa : Nat) (exponent : Int)
  | infinite (negative : Bool)
  | notANumber
deriving DecidableEq, Repr

namespace Binary64

def minExponent : Int := -1074
def maxExponent : Int := 971

def scaleDown (num den : Nat) (e : Int) : Nat × Nat :=
  if 0 ≤ e then (num, den * Nat.pow 2 e.toNat) else (num * Nat.pow 2 (-e).toNat, den)

/-- The nearest natural number, a tie to the even one. -/
def roundDiv (num den : Nat) : Nat :=
  let q := num / den
  let r := num % den
  if 2 * r < den then q
  else if den < 2 * r then q + 1
  else if q % 2 = 0 then q else q + 1

/-- The nearest natural number whose leading 53 bits are all it has, a tie to
the even mantissa. -/
def roundNat (n : Nat) : Nat :=
  let unit := Nat.pow 2 (n.log2 - 52)
  roundDiv n unit * unit

def exponentFor (num den : Nat) : Int :=
  let e : Int := (num.log2 : Int) - (den.log2 : Int) - 52
  let (n, d) := scaleDown num den e
  max minExponent (if n / d < Nat.pow 2 52 then e - 1 else e)

def ofRatio (negative : Bool) (num den : Nat) : Binary64 :=
  if num = 0 then finite negative 0 minExponent
  else
    let e := exponentFor num den
    let (n, d) := scaleDown num den e
    let m := roundDiv n d
    let (m, e) := if m = Nat.pow 2 53 then (Nat.pow 2 52, e + 1) else (m, e)
    if maxExponent < e then infinite negative else finite negative m e

/-- The number of digits after which a number is surely infinite or zero. -/
def farExponent : Int := 400

def ofDecimal (negative : Bool) (digits : Nat) (exponent : Int) : Binary64 :=
  let size : Int := (Nat.toDigits 10 digits).length + exponent
  if digits = 0 ∨ size < -farExponent then finite negative 0 minExponent
  else if farExponent < size then infinite negative
  else if 0 ≤ exponent then ofRatio negative (digits * Nat.pow 10 exponent.toNat) 1
  else ofRatio negative digits (Nat.pow 10 (-exponent).toNat)

def onScale (negative : Bool) (mantissa : Nat) (exponent scale : Int) : Int :=
  let n : Int := mantissa * Nat.pow 2 (exponent - scale).toNat
  if negative then -n else n

/-- By value; what is not a number comes last. -/
def order : Binary64 → Binary64 → Ordering
  | notANumber, notANumber => .eq
  | notANumber, _ => .gt
  | _, notANumber => .lt
  | infinite n, infinite m => compare m n
  | infinite n, finite _ _ _ => if n then .lt else .gt
  | finite _ _ _, infinite n => if n then .gt else .lt
  | finite n a e, finite m b f =>
    let scale := min e f
    compare (onScale n a e scale) (onScale m b f scale)

end Binary64
end InstallLocator
