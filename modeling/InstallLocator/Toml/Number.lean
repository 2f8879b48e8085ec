import InstallLocator.Toml.Item
import InstallLocator.Toml.Text

/-!
# Numbers, dates and times in TOML

Underscores may stand between two digits. Integers must fit in 64 bits with a
sign, and a float must not round to positive infinity. Of dates and times only
the form counts: the value is not kept.
-/

set_option autoImplicit false

namespace InstallLocator.Toml

/-- The digits after a first one; an underscore needs a digit after it. -/
def moreDigits (isDigit : Char → Bool) : List Char → Read (List Char)
  | '_' :: d :: rest => if isDigit d then prepend (some d) (moreDigits isDigit rest) else none
  | ['_'] => none
  | d :: rest =>
    if isDigit d then prepend (some d) (moreDigits isDigit rest) else some ([], d :: rest)
  | [] => some ([], [])

def digitRun (isDigit : Char → Bool) : List Char → Read (List Char)
  | d :: rest => if isDigit d then prepend (some d) (moreDigits isDigit rest) else none
  | [] => none

def decimalValue (digits : List Char) : Nat :=
  ofDigits 10 (digits.filterMap decimalDigit?)

def signed (negative : Bool) (n : Nat) : Int := if negative then -n else n

def sign : List Char → Bool × List Char
  | '-' :: rest => (true, rest)
  | '+' :: rest => (false, rest)
  | cs => (false, cs)

def maxInteger : Int := 9223372036854775807

def integerItem? (n : Int) : Option Item :=
  if -maxInteger - 1 ≤ n ∧ n ≤ maxInteger then some (.integer n) else none

def based (base : Nat) (isDigit : Char → Bool) (cs : List Char) :
    Option (Item × List Char) := do
  let (digits, rest) ← digitRun isDigit cs
  let item ← integerItem? (ofDigits base (digits.filterMap hexDigit?))
  return (item, rest)

def isHexDigit (c : Char) : Bool := (hexDigit? c).isSome
def isOctalDigit (c : Char) : Bool := '0' ≤ c && c ≤ '7'
def isBinaryDigit (c : Char) : Bool := c == '0' || c == '1'

/-- The digits before the point: a leading zero stands alone. -/
def wholePart : List Char → Read (List Char)
  | '0' :: rest => some (['0'], rest)
  | cs => digitRun Char.isDigit cs

def exponentPart : List Char → Option (Option Int × List Char)
  | c :: rest =>
    if c = 'e' ∨ c = 'E' then do
      let (negative, rest) := sign rest
      let (digits, rest) ← digitRun Char.isDigit rest
      return (some (signed negative (decimalValue digits)), rest)
    else some (none, c :: rest)
  | [] => some (none, [])

def floatItem? (negative : Bool) (whole fraction : List Char) (exponent : Int) : Option Item :=
  let x := Binary64.ofDecimal negative (decimalValue (whole ++ fraction))
    (exponent - fraction.length)
  if x = .infinite false then none else some (.float x)

def decimal (negative : Bool) (cs : List Char) : Option (Item × List Char) := do
  let (whole, rest) ← wholePart cs
  match rest with
  | '.' :: rest =>
    let (fraction, rest) ← digitRun Char.isDigit rest
    let (exponent, rest) ← exponentPart rest
    return (← floatItem? negative whole fraction (exponent.getD 0), rest)
  | rest =>
    match ← exponentPart rest with
    | (some exponent, rest) => return (← floatItem? negative whole [] exponent, rest)
    | (none, rest) => return (← integerItem? (signed negative (decimalValue whole)), rest)

def fixedDigits (count : Nat) (cs : List Char) : Read Nat :=
  let digits := (cs.take count).filterMap decimalDigit?
  if digits.length = count then some (ofDigits 10 digits, cs.drop count) else none

def expect (c : Char) : List Char → Option (List Char)
  | d :: rest => if d = c then some rest else none
  | [] => none

def daysInMonth (year month : Nat) : Nat :=
  if month = 2 then
    if year % 4 = 0 ∧ (year % 100 ≠ 0 ∨ year % 400 = 0) then 29 else 28
  else if month = 4 ∨ month = 6 ∨ month = 9 ∨ month = 11 then 30 else 31

def date? (cs : List Char) : Option (List Char) := do
  let (year, cs) ← fixedDigits 4 cs
  let (month, cs) ← fixedDigits 2 (← expect '-' cs)
  let (day, cs) ← fixedDigits 2 (← expect '-' cs)
  if 1 ≤ month ∧ month ≤ 12 ∧ 1 ≤ day ∧ day ≤ daysInMonth year month then some cs else none

def hourMinute? (cs : List Char) : Option (List Char) := do
  let (hour, cs) ← fixedDigits 2 cs
  let (minute, cs) ← fixedDigits 2 (← expect ':' cs)
  if hour ≤ 23 ∧ minute ≤ 59 then some cs else none

def time? (cs : List Char) : Option (List Char) := do
  let (second, cs) ← fixedDigits 2 (← expect ':' (← hourMinute? cs))
  if second ≤ 60 then
    match cs with
    | '.' :: d :: rest => if d.isDigit then some (rest.dropWhile Char.isDigit) else some cs
    | _ => some cs
  else none

def offset : List Char → List Char
  | 'Z' :: rest => rest
  | 'z' :: rest => rest
  | '+' :: rest => (hourMinute? rest).getD ('+' :: rest)
  | '-' :: rest => (hourMinute? rest).getD ('-' :: rest)
  | cs => cs

def moment? (cs : List Char) : Option (List Char) :=
  match date? cs with
  | some (c :: rest) =>
    if c = 'T' ∨ c = 't' ∨ c = ' ' then
      match time? rest with
      | some after => some (offset after)
      | none => some (c :: rest)
    else some (c :: rest)
  | some [] => some []
  | none => time? cs

def special (negative : Bool) : List Char → Read Item
  | 'i' :: 'n' :: 'f' :: rest => some (.float (.infinite negative), rest)
  | 'n' :: 'a' :: 'n' :: rest => some (.float .notANumber, rest)
  | _ => none

def number (cs : List Char) : Read Item :=
  match moment? cs with
  | some rest => some (.moment, rest)
  | none =>
    match cs with
    | '0' :: 'x' :: rest => based 16 isHexDigit rest
    | '0' :: 'o' :: rest => based 8 isOctalDigit rest
    | '0' :: 'b' :: rest => based 2 isBinaryDigit rest
    | cs =>
      let (negative, rest) := sign cs
      match special negative rest with
      | some r => some r
      | none => decimal negative rest

end InstallLocator.Toml
