import InstallLocator.Number.Shortest
import InstallLocator.Text.AsciiCase
import InstallLocator.Text.Digits

/-!
# Binary numbers as texts

A number is written in digits with an optional sign, point and exponent, or by
name. A point needs a digit on one of its sides.
-/

set_option autoImplicit false

namespace InstallLocator.Binary64

def sign : List Char → Bool × List Char
  | '-' :: rest => (true, rest)
  | '+' :: rest => (false, rest)
  | cs => (false, cs)

def digitsOf (cs : List Char) : List Nat :=
  (cs.takeWhile Char.isDigit).filterMap decimalDigit?

def exponent? : List Char → Option Int
  | [] => some 0
  | c :: rest =>
    let (negative, rest) := sign rest
    if c.toLower = 'e' ∧ !rest.isEmpty ∧ rest.all Char.isDigit then
      let n : Int := ofDigits 10 (digitsOf rest)
      some (if negative then -n else n)
    else none

def named? (negative : Bool) (cs : List Char) : Option Binary64 :=
  let isName (name : String) := sameIgnoringCase (String.ofList cs) name
  if isName "inf" || isName "infinity" then some (.infinite negative)
  else if isName "nan" then some .notANumber
  else none

def digits? (negative : Bool) (cs : List Char) : Option Binary64 :=
  let whole := digitsOf cs
  let rest := cs.dropWhile Char.isDigit
  let (places, rest) := match rest with
    | '.' :: rest => (digitsOf rest, rest.dropWhile Char.isDigit)
    | rest => ([], rest)
  let digits := whole ++ places
  if digits.isEmpty then none
  else (exponent? rest).map fun e => ofDecimal negative (ofDigits 10 digits) (e - places.length)

def parse? (cs : List Char) : Option Binary64 :=
  let (negative, cs) := sign cs
  (named? negative cs).or (digits? negative cs)

/-- The shortest text; a whole number has no point. -/
def plainText (x : Binary64) : String :=
  let cs := (Shortest.text x).toList
  if ['.', '0'].isSuffixOf cs then String.ofList (cs.take (cs.length - 2)) else String.ofList cs

end InstallLocator.Binary64
