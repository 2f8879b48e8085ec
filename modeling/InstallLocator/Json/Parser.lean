import InstallLocator.Json.Printer
import InstallLocator.Number.Binary64
import InstallLocator.Text.Digits

/-!
# Reading JSON documents

One value with white space around it. A fault is reported with its place: the
line, and the number of bytes of that line up to where the reading stopped.
-/

set_option autoImplicit false

namespace InstallLocator.Json

inductive Fault
  | endInArray
  | endInObject
  | endInString
  | endInValue
  | colon
  | arraySeparator
  | objectSeparator
  | word
  | value
  | escape
  | number
  | numberRange
  | controlCharacter
  | keyNotString
  | loneSurrogate
  | trailingComma
  | trailingCharacters
  | endOfEscape
  | depth
deriving DecidableEq, Repr

def Fault.message : Fault → String
  | endInArray => "EOF while parsing a list"
  | endInObject => "EOF while parsing an object"
  | endInString => "EOF while parsing a string"
  | endInValue => "EOF while parsing a value"
  | colon => "expected `:`"
  | arraySeparator => "expected `,` or `]`"
  | objectSeparator => "expected `,` or `\x7d`"
  | word => "expected ident"
  | value => "expected value"
  | escape => "invalid escape"
  | number => "invalid number"
  | numberRange => "number out of range"
  | controlCharacter => "control character (\\u0000-\\u001F) found while parsing a string"
  | keyNotString => "key must be a string"
  | loneSurrogate => "lone leading surrogate in hex escape"
  | trailingComma => "trailing comma"
  | trailingCharacters => "trailing characters"
  | endOfEscape => "unexpected end of hex escape"
  | depth => "recursion limit exceeded"

/-- The fault, what was still unread, and how many bytes of that count as seen. -/
structure Stop where
  fault : Fault
  unread : List Char
  seen : Nat

abbrev Read (α : Type) := Except Stop (α × List Char)

def after {α : Type} (fault : Fault) (rest : List Char) : Except Stop α :=
  .error ⟨fault, rest, 0⟩

def here {α : Type} (fault : Fault) (rest : List Char) : Except Stop α :=
  .error ⟨fault, rest, if rest.isEmpty then 0 else 1⟩

def isBlank (c : Char) : Bool := c == ' ' || c == '\n' || c == '\t' || c == '\r'

def skip (cs : List Char) : List Char := cs.dropWhile isBlank

def word : List Char → List Char → Except Stop (List Char)
  | [], cs => .ok cs
  | _ :: _, [] => after .endInValue []
  | w :: ws, c :: cs => if c = w then word ws cs else here .word (c :: cs)

def digits (cs : List Char) : List Nat × List Char :=
  ((cs.takeWhile Char.isDigit).filterMap decimalDigit?, cs.dropWhile Char.isDigit)

/-- The digits that count of a number, and the power of ten they are times. -/
structure Scale where
  significand : Nat
  exponent : Int

/-- Only as many digits count as fit into 64 bits. -/
def Scale.next? (s : Scale) (digit : Nat) : Option Nat :=
  if s.significand * 10 + digit < Nat.pow 2 64 then some (s.significand * 10 + digit) else none

/-- Digits before the point; one that does not count still has its place. -/
def Scale.whole (s : Scale) : List Nat → Scale
  | [] => s
  | d :: ds =>
    match s.next? d with
    | some n => Scale.whole ⟨n, s.exponent⟩ ds
    | none => ⟨s.significand, s.exponent + ((d :: ds).length : Int)⟩

def Scale.places (s : Scale) : List Nat → Scale
  | [] => s
  | d :: ds =>
    match s.next? d with
    | some n => Scale.places ⟨n, s.exponent - 1⟩ ds
    | none => s

def maxPower : Nat := 308

/-- The product of the rounded significand and the rounded power of ten is
beyond all finite numbers. Small numbers never are: they become zero. -/
def Scale.isTooLarge (s : Scale) : Bool :=
  s.significand ≠ 0 && 0 ≤ s.exponent &&
    (maxPower < s.exponent ||
      Nat.pow 2 1024 ≤ Binary64.roundNat
        (Binary64.roundNat s.significand * Binary64.roundNat (Nat.pow 10 s.exponent.toNat)))

def Scale.close (s : Scale) (rest : List Char) : Except Stop (List Char) :=
  if s.isTooLarge then after .numberRange rest else .ok rest

def maxExponent : Nat := 2147483648

/-- The digits of an exponent, as long as their value is small. -/
def exponentDigits (n : Nat) : List Char → Nat × List Char
  | [] => (n, [])
  | c :: cs =>
    match decimalDigit? c with
    | some d =>
      if maxExponent ≤ n * 10 + d then (n * 10 + d, cs) else exponentDigits (n * 10 + d) cs
    | none => (n, c :: cs)

def exponent (s : Scale) (cs : List Char) : Except Stop (List Char) := do
  let (negative, cs) := match cs with
    | '+' :: cs => (false, cs)
    | '-' :: cs => (true, cs)
    | cs => (false, cs)
  match cs with
  | [] => after .endInValue []
  | c :: rest =>
    if !c.isDigit then here .number (c :: rest)
    else
      let (n, rest) := exponentDigits 0 (c :: rest)
      let rest ← Scale.close ⟨s.significand, s.exponent + if negative then -(n : Int) else n⟩ rest
      return rest.dropWhile Char.isDigit

def afterDigits (s : Scale) : List Char → Except Stop (List Char)
  | [] => s.close []
  | c :: rest => if c = 'e' ∨ c = 'E' then exponent s rest else s.close (c :: rest)

def fraction (s : Scale) : List Char → Except Stop (List Char)
  | '.' :: cs =>
    let (places, rest) := digits cs
    if places.isEmpty then here (if rest.isEmpty then .endInValue else .number) rest
    else afterDigits (s.places places) rest
  | rest => afterDigits s rest

def numberRest : List Char → Except Stop (List Char)
  | [] => after .endInValue []
  | '0' :: rest =>
    match rest with
    | c :: _ => if c.isDigit then here .number rest else fraction ⟨0, 0⟩ rest
    | [] => .ok []
  | c :: rest =>
    if c.isDigit then
      let (whole, rest) := digits (c :: rest)
      fraction (Scale.whole ⟨0, 0⟩ whole) rest
    else here .number (c :: rest)

def numberValue (cs : List Char) : Except Stop (Json × List Char) := do
  let rest ← match cs with
    | '-' :: cs => numberRest cs
    | cs => numberRest cs
  return (.number (cs.take (cs.length - rest.length)), rest)

def unit (cs : List Char) : Except Stop (Nat × List Char) :=
  if (Utf8.encode (cs.take 4)).length < 4 then after .endInString []
  else match (cs.take 4).mapM hexDigit? with
    | some ds => .ok (ofDigits 16 ds, cs.drop 4)
    | none => .error ⟨.escape, cs, 4⟩

def isLeading (n : Nat) : Bool := 0xD800 ≤ n && n ≤ 0xDBFF
def isTrailing (n : Nat) : Bool := 0xDC00 ≤ n && n ≤ 0xDFFF

def expect (c : Char) : List Char → Except Stop (List Char)
  | [] => after .endInString []
  | d :: rest => if d = c then .ok rest else .error ⟨.endOfEscape, d :: rest, 1⟩

def unicode (cs : List Char) : Except Stop (Char × List Char) := do
  let (n, rest) ← unit cs
  if isTrailing n then after .loneSurrogate rest
  else if isLeading n then
    let (m, rest) ← unit (← expect 'u' (← expect '\\' rest))
    if isTrailing m then
      return (Char.ofNat (0x10000 + (n - 0xD800) * 0x400 + (m - 0xDC00)), rest)
    else after .loneSurrogate rest
  else return (Char.ofNat n, rest)

def escaped : List Char → Except Stop (Char × List Char)
  | [] => after .endInString []
  | c :: rest =>
    match c with
    | '"' => .ok ('"', rest)
    | '\\' => .ok ('\\', rest)
    | '/' => .ok ('/', rest)
    | 'b' => .ok ('\x08', rest)
    | 'f' => .ok ('\x0c', rest)
    | 'n' => .ok ('\n', rest)
    | 'r' => .ok ('\r', rest)
    | 't' => .ok ('\t', rest)
    | 'u' => unicode rest
    | _ => here .escape (c :: rest)

def stringBody (cs : List Char) : Except Stop (List Char × List Char) :=
  match cs with
  | [] => after .endInString []
  | '"' :: rest => .ok ([], rest)
  | '\\' :: rest => do
    let (c, next) ← escaped rest
    if next.length ≤ rest.length then
      let (s, rest) ← stringBody next
      return (c :: s, rest)
    else after .endInString []
  | c :: rest =>
    if c.toNat < 0x20 then after .controlCharacter rest
    else do
      let (s, rest) ← stringBody rest
      return (c :: s, rest)
termination_by cs.length

def items (item : List Char → Read Json) (cs : List Char) :
    Except Stop (List Json × List Char) := do
  let (j, rest) ← item cs
  match skip rest with
  | [] => after .endInArray []
  | ']' :: rest => return ([j], rest)
  | ',' :: rest =>
    match skip rest with
    | [] => after .endInValue []
    | ']' :: rest => here .trailingComma (']' :: rest)
    | next =>
      if next.length < cs.length then
        let (js, rest) ← items item next
        return (j :: js, rest)
      else after .endInArray []
  | rest => here .arraySeparator rest
termination_by cs.length

def member (item : List Char → Read Json) (cs : List Char) :
    Except Stop ((String × Json) × List Char) := do
  let (k, rest) ← stringBody cs
  match skip rest with
  | [] => after .endInObject []
  | ':' :: rest =>
    let (j, rest) ← item rest
    return ((String.ofList k, j), rest)
  | rest => here .colon rest

def members (item : List Char → Read Json) (cs : List Char) :
    Except Stop (List (String × Json) × List Char) := do
  let (m, rest) ← member item cs
  match skip rest with
  | [] => after .endInObject []
  | '\x7d' :: rest => return ([m], rest)
  | ',' :: rest =>
    match skip rest with
    | [] => after .endInValue []
    | '\x7d' :: rest => here .trailingComma ('\x7d' :: rest)
    | '"' :: next =>
      if next.length < cs.length then
        let (ms, rest) ← members item next
        return (m :: ms, rest)
      else after .endInObject []
    | rest => here .keyNotString rest
  | rest => here .objectSeparator rest
termination_by cs.length

def maxDepth : Nat := 127

/-- A value that may still nest so many levels. -/
def value (depth : Nat) (cs : List Char) : Except Stop (Json × List Char) :=
  match skip cs with
  | [] => after .endInValue []
  | 'n' :: rest => do return (.null, ← word ['u', 'l', 'l'] rest)
  | 't' :: rest => do return (.boolean true, ← word ['r', 'u', 'e'] rest)
  | 'f' :: rest => do return (.boolean false, ← word ['a', 'l', 's', 'e'] rest)
  | '"' :: rest => do
    let (s, rest) ← stringBody rest
    return (.text (String.ofList s), rest)
  | '[' :: rest =>
    match depth with
    | 0 => here .depth ('[' :: rest)
    | depth + 1 =>
      match skip rest with
      | [] => after .endInArray []
      | ']' :: rest => .ok (.array [], rest)
      | rest => (items (value depth) rest).map fun x => (.array x.1, x.2)
  | '\x7b' :: rest =>
    match depth with
    | 0 => here .depth ('\x7b' :: rest)
    | depth + 1 =>
      match skip rest with
      | [] => after .endInObject []
      | '\x7d' :: rest => .ok (.object [], rest)
      | '"' :: rest => (members (value depth) rest).map fun x => (.object x.1, x.2)
      | rest => here .keyNotString rest
  | c :: rest =>
    if c = '-' ∨ c.isDigit then numberValue (c :: rest) else here .value (c :: rest)

structure Error where
  fault : Fault
  line : Nat
  column : Nat
deriving DecidableEq, Repr

def Error.message (e : Error) : String :=
  e.fault.message ++ " at line " ++ toString e.line ++ " column " ++ toString e.column

def Stop.locate (text : String) (s : Stop) : Error :=
  let bytes := Utf8.encode text.toList
  let before := bytes.take (bytes.length - (Utf8.encode s.unread).length + s.seen)
  ⟨s.fault, before.count 0x0A + 1, (before.reverse.takeWhile (· ≠ 0x0A)).length⟩

def document (cs : List Char) : Except Stop Json := do
  let (j, rest) ← value maxDepth cs
  match skip rest with
  | [] => return j
  | rest => here .trailingCharacters rest

def parse (text : String) : Except Error Json :=
  (document text.toList).mapError (Stop.locate text)

end InstallLocator.Json
