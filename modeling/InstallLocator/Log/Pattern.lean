import InstallLocator.Text.Alphanumeric
import InstallLocator.Text.Digits
import InstallLocator.Text.White

/-!
# Patterns

Which texts are regular expressions that can be matched in one pass over the
bytes of a text. A repetition needs something to repeat, brackets and groups
are closed, a range does not run backwards, an escape is a known one. What
looks ahead, behind or back is refused, and so are the edges of words, since
they depend on the characters on both sides, unless the characters are single
bytes; but then nothing may match a part of a longer character. No counted
repetition is known.
-/

set_option autoImplicit false

namespace InstallLocator.Pattern

/-- Whether a character may be longer than a byte, and whether blanks and
comments are passed over. -/
structure Flags where
  unicode : Bool
  spaced : Bool

inductive Item
  | char (code : Nat)
  | set
  | anchor

/-- Punctuation may be escaped, letters and digits only where they mean something. -/
def isPunctuation (c : Char) : Bool :=
  c.toNat < 0x80 && !c.isAlphanum && c != '<' && c != '>'

def numbered? (count : Nat) (cs : List Char) : Option (Nat × List Char) := do
  let ds ← (cs.take count).mapM hexDigit?
  let n := ofDigits 16 ds
  if ds.length = count ∧ n.isValidChar then some (n, cs.drop count) else none

/-- A byte that is no character is not matched alone. -/
def byte? (f : Flags) (cs : List Char) : Option (Item × List Char) := do
  let (n, rest) ← numbered? 2 cs
  if f.unicode || n < 0x80 then some (.char n, rest) else none

def categories : List Char := ['c', 'l', 'm', 'n', 'p', 's', 'z']

def category? : List Char → Option (Item × List Char)
  | [] => none
  | c :: rest => if categories.contains c.toLower then some (.set, rest) else none

def escape? (f : Flags) : List Char → Option (Item × List Char)
  | [] => none
  | c :: rest =>
    if isPunctuation c then some (.char c.toNat, rest)
    else match c with
      | 'a' => some (.char 0x07, rest)
      | 'f' => some (.char 0x0C, rest)
      | 't' => some (.char 0x09, rest)
      | 'n' => some (.char 0x0A, rest)
      | 'r' => some (.char 0x0D, rest)
      | 'v' => some (.char 0x0B, rest)
      | 'x' => byte? f rest
      | 'u' => (numbered? 4 rest).map fun x => (.char x.1, x.2)
      | 'U' => (numbered? 8 rest).map fun x => (.char x.1, x.2)
      | 'A' => some (.anchor, rest)
      | 'z' => some (.anchor, rest)
      | c =>
        if c == 'p' || c == 'P' then if f.unicode then category? rest else none
        else if "dsw".contains c then some (.set, rest)
        else if "DSW".contains c then if f.unicode then some (.set, rest) else none
        else if "bB<>".contains c then if f.unicode then none else some (.anchor, rest)
        else none

def skipFrom (inComment : Bool) : List Char → List Char
  | [] => []
  | c :: rest =>
    if inComment then skipFrom (c ≠ '\n') rest
    else if isWhite c then skipFrom false rest
    else if c = '#' then skipFrom true rest
    else c :: rest

def Flags.skip (f : Flags) (cs : List Char) : List Char :=
  if f.spaced then skipFrom false cs else cs

def item? (f : Flags) : List Char → Option (Item × List Char)
  | [] => none
  | '\\' :: rest => do
    let (i, rest) ← escape? f rest
    match i with
    | .char n => if f.unicode || n < 0x80 then some (.char n, rest) else none
    | .set => some (.set, rest)
    | .anchor => none
  | c :: rest => if f.unicode || c.toNat < 0x80 then some (.char c.toNat, rest) else none

def range? (f : Flags) (cs : List Char) : Option (List Char) := do
  let (first, rest) ← item? f cs
  match f.skip rest with
  | '-' :: next =>
    let next := f.skip next
    if next.head? = some ']' ∨ next.head? = some '-' then some ('-' :: next)
    else match first, ← item? f next with
      | .char a, (.char b, rest) => if a ≤ b then some rest else none
      | _, _ => none
  | rest => some rest

def classNames : List String :=
  ["alnum", "alpha", "ascii", "blank", "cntrl", "digit", "graph", "lower", "print", "punct",
   "space", "upper", "word", "xdigit"]

def named? : List Char → Option (List Char)
  | ':' :: cs =>
    let cs := if cs.head? = some '^' then cs.tail else cs
    match cs.dropWhile (· ≠ ':') with
    | ':' :: ']' :: rest =>
      if classNames.contains (String.ofList (cs.takeWhile (· ≠ ':'))) then some rest else none
    | _ => none
  | _ => none

/-- What comes after the start of a class, its opening bracket read already: a
caret, and then hyphens, or a closing bracket that stands for itself. -/
def classStart (f : Flags) (cs : List Char) : List Char :=
  let cs := f.skip cs
  let cs := if cs.head? = some '^' then f.skip cs.tail else cs
  match cs with
  | ']' :: rest => rest
  | _ => cs.dropWhile (· = '-')

def isOperator (a b : Char) : Bool :=
  a == b && (a == '&' || a == '-' || a == '~')

def classStep? (f : Flags) (depth : Nat) : List Char → Option (Nat × List Char)
  | [] => none
  | '[' :: rest =>
    match named? rest with
    | some rest => some (depth, rest)
    | none => some (depth + 1, classStart f rest)
  | ']' :: rest => some (depth - 1, rest)
  | a :: rest =>
    if isOperator a (rest.headD ']') then some (depth, rest.tail)
    else (range? f (a :: rest)).map fun rest => (depth, rest)

def classRest? (f : Flags) (depth : Nat) (cs : List Char) : Option (List Char) :=
  if depth = 0 then some cs
  else match classStep? f depth (f.skip cs) with
    | none => none
    | some (depth, rest) => if rest.length < cs.length then classRest? f depth rest else none
termination_by cs.length

/-- A class after its opening bracket. All but some bytes are not all characters. -/
def class? (f : Flags) (cs : List Char) : Option (List Char) :=
  if !f.unicode && (f.skip cs).head? = some '^' then none
  else classRest? f 1 (classStart f cs)

def isFlag (c : Char) : Bool := "imsURux".contains c

def flags? (seen : List Char) : List Char → Option (List Char × List Char)
  | [] => none
  | c :: rest =>
    if c = ':' ∨ c = ')' then if seen.head? = some '-' then none else some (seen, c :: rest)
    else if seen.contains c || !(isFlag c || c == '-') then none
    else flags? (c :: seen) rest

def Flags.update (f : Flags) (reversed : List Char) : Flags :=
  let added := reversed.reverse.takeWhile (· ≠ '-')
  let removed := reversed.reverse.dropWhile (· ≠ '-')
  ⟨(f.unicode || added.contains 'u') && !removed.contains 'u',
    (f.spaced || added.contains 'x') && !removed.contains 'x'⟩

def isNameChar (first : Bool) (c : Char) : Bool :=
  c == '_' || isAlphanumeric c && !(first && c.isDigit) ||
    !first && (c == '.' || c == '[' || c == ']')

def groupName? (cs : List Char) : Option (String × List Char) :=
  match cs.takeWhile (· ≠ '>'), cs.dropWhile (· ≠ '>') with
  | c :: name, _ :: rest =>
    if isNameChar true c && name.all (isNameChar false) then some (String.ofList (c :: name), rest)
    else none
  | _, _ => none

/-- The start of a group: its name or the flags in it, or flags for the rest of
the group around it. -/
inductive Opening
  | named (name : String) (rest : List Char)
  | group (f : Flags) (rest : List Char)
  | flags (f : Flags) (rest : List Char)

def opening? (f : Flags) (cs : List Char) : Option Opening :=
  match f.skip cs with
  | '?' :: 'P' :: '<' :: rest => (groupName? rest).map fun x => .named x.1 x.2
  | '?' :: '<' :: rest => (groupName? rest).map fun x => .named x.1 x.2
  | '?' :: rest =>
    match flags? [] rest with
    | some (seen, ':' :: rest) => some (.group (f.update seen) rest)
    | some (seen, _ :: rest) => if seen.isEmpty then none else some (.flags (f.update seen) rest)
    | _ => none
  | rest => some (.group f rest)

/-- The flags around each open group, the flags now, the names given so far,
and whether there is something to repeat. -/
structure State where
  groups : List Flags
  flags : Flags
  names : List String
  operand : Bool

def maxDepth : Nat := 250

def State.openGroup? (s : State) (f : Flags) (names : List String) : Option State :=
  if s.groups.length < maxDepth then some ⟨s.flags :: s.groups, f, names, false⟩ else none

def State.step? (s : State) : List Char → Option (State × List Char)
  | [] => none
  | c :: rest =>
    match c with
    | '(' =>
      match opening? s.flags rest with
      | none => none
      | some (.flags f rest) => some ({ s with flags := f, operand := false }, rest)
      | some (.group f rest) => (s.openGroup? f s.names).map fun s => (s, rest)
      | some (.named n rest) =>
        if s.names.contains n then none
        else (s.openGroup? s.flags (n :: s.names)).map fun s => (s, rest)
    | ')' =>
      match s.groups with
      | [] => none
      | f :: groups => some (⟨groups, f, s.names, true⟩, rest)
    | '|' => some ({ s with operand := false }, rest)
    | '[' => (class? s.flags rest).map fun rest => ({ s with operand := true }, rest)
    | '\x7b' => none
    | '.' => if s.flags.unicode then some ({ s with operand := true }, rest) else none
    | '\\' => (escape? s.flags rest).map fun x => ({ s with operand := true }, x.2)
    | c =>
      if c = '?' ∨ c = '*' ∨ c = '+' then
        if s.operand then some (s, if rest.head? = some '?' then rest.tail else rest) else none
      else some ({ s with operand := true }, rest)

def readsOn (s : State) (cs : List Char) : Bool :=
  match s.flags.skip cs with
  | [] => s.groups.isEmpty
  | next =>
    match s.step? next with
    | none => false
    | some (s, rest) => if rest.length < cs.length then readsOn s rest else false
termination_by cs.length

def isValid (text : String) : Bool := readsOn ⟨[], ⟨true, false⟩, [], false⟩ text.toList

end InstallLocator.Pattern
