import InstallLocator.Text.Digits

/-!
# Keys, strings and blanks in TOML

Each reader takes the characters from its first one on and answers what it
read with the rest, or nothing when the characters are not of its form.
-/

set_option autoImplicit false

namespace InstallLocator.Toml

abbrev Read (α : Type) := Option (α × List Char)

def isBlank (c : Char) : Bool := c == ' ' || c == '\t'

def skipBlanks (cs : List Char) : List Char := cs.dropWhile isBlank

def newline? : List Char → Option (List Char)
  | '\n' :: rest => some rest
  | '\r' :: '\n' :: rest => some rest
  | _ => none

/-- Characters that stand for themselves in strings and comments: of the control
characters the tab alone. -/
def isPlain (c : Char) : Bool := c == '\t' || (0x20 ≤ c.toNat && c.toNat ≠ 0x7F)

def skipComment : List Char → List Char
  | '#' :: rest => rest.dropWhile isPlain
  | cs => cs

def lineEnd? (cs : List Char) : Option (List Char) :=
  match skipComment (skipBlanks cs) with
  | [] => some []
  | rest => newline? rest

def skipLines (comment : Bool) : List Char → Option (List Char)
  | [] => if comment then none else some []
  | '\n' :: rest => skipLines false rest
  | '\r' :: '\n' :: rest => skipLines false rest
  | c :: rest =>
    if comment then
      if isPlain c then skipLines true rest else none
    else if isBlank c then skipLines false rest
    else if c = '#' then skipLines true rest
    else some (c :: rest)

def codePoint? (digits : List Char) : Option Char := do
  let n := ofDigits 16 (← digits.mapM hexDigit?)
  if n.isValidChar then some (Char.ofNat n) else none

def shortEscape? : Char → Option Char
  | 'b' => some '\x08'
  | 't' => some '\t'
  | 'n' => some '\n'
  | 'f' => some '\x0c'
  | 'r' => some '\r'
  | '"' => some '"'
  | '\\' => some '\\'
  | _ => none

def prepend (c : Option Char) (r : Read (List Char)) : Read (List Char) :=
  match c, r with
  | some c, some (cs, rest) => some (c :: cs, rest)
  | _, _ => none

def basicBody : List Char → Read (List Char)
  | [] => none
  | '"' :: rest => some ([], rest)
  | '\\' :: 'u' :: a :: b :: c :: d :: rest => prepend (codePoint? [a, b, c, d]) (basicBody rest)
  | '\\' :: 'U' :: a :: b :: c :: d :: e :: f :: g :: h :: rest =>
    prepend (codePoint? [a, b, c, d, e, f, g, h]) (basicBody rest)
  | '\\' :: c :: rest => prepend (shortEscape? c) (basicBody rest)
  | c :: rest => if isPlain c ∧ c ≠ '\\' then prepend (some c) (basicBody rest) else none

def literalBody : List Char → Read (List Char)
  | [] => none
  | '\'' :: rest => some ([], rest)
  | c :: rest => if isPlain c then prepend (some c) (literalBody rest) else none

/-- After three quotes that may end a string: up to two more belong to it. -/
def closing (quote : Char) (rest : List Char) : List Char × List Char :=
  match rest with
  | a :: b :: after =>
    if a = quote ∧ b = quote then ([quote, quote], after)
    else if a = quote then ([quote], b :: after) else ([], a :: b :: after)
  | [a] => if a = quote then ([quote], []) else ([], [a])
  | [] => ([], [])

def endsLine (cs : List Char) : Bool := (newline? (skipBlanks cs)).isSome

/-- The rest of a basic string of several lines. While `skipping`, blanks and
line breaks after a backslash at the end of a line are left out. -/
def basicLines (skipping : Bool) : List Char → Read (List Char)
  | [] => none
  | '"' :: '"' :: '"' :: rest => some (closing '"' rest)
  | '\r' :: '\n' :: rest =>
    if skipping then basicLines true rest else prepend (some '\n') (basicLines false rest)
  | '\n' :: rest =>
    if skipping then basicLines true rest else prepend (some '\n') (basicLines false rest)
  | '\\' :: 'u' :: a :: b :: c :: d :: rest =>
    prepend (codePoint? [a, b, c, d]) (basicLines false rest)
  | '\\' :: 'U' :: a :: b :: c :: d :: e :: f :: g :: h :: rest =>
    prepend (codePoint? [a, b, c, d, e, f, g, h]) (basicLines false rest)
  | '\\' :: c :: rest =>
    if endsLine (c :: rest) then basicLines true (c :: rest)
    else prepend (shortEscape? c) (basicLines false rest)
  | c :: rest =>
    if skipping ∧ isBlank c then basicLines true rest
    else if isPlain c ∧ c ≠ '\\' then prepend (some c) (basicLines false rest) else none

def literalLines : List Char → Read (List Char)
  | [] => none
  | '\'' :: '\'' :: '\'' :: rest => some (closing '\'' rest)
  | '\r' :: '\n' :: rest => prepend (some '\n') (literalLines rest)
  | '\n' :: rest => prepend (some '\n') (literalLines rest)
  | c :: rest => if isPlain c then prepend (some c) (literalLines rest) else none

/-- A line break right after the opening quotes does not count. -/
def firstLine (cs : List Char) : List Char := (newline? cs).getD cs

def lineString : List Char → Read (List Char)
  | '"' :: rest => basicBody rest
  | '\'' :: rest => literalBody rest
  | _ => none

def string : List Char → Read (List Char)
  | '"' :: '"' :: '"' :: rest => basicLines false (firstLine rest)
  | '\'' :: '\'' :: '\'' :: rest => literalLines (firstLine rest)
  | cs => lineString cs

def isBareKeyChar (c : Char) : Bool := c.isAlphanum || c == '-' || c == '_'

def simpleKey (cs : List Char) : Read (List Char) :=
  match cs with
  | '"' :: _ => lineString cs
  | '\'' :: _ => lineString cs
  | _ =>
    if (cs.takeWhile isBareKeyChar).isEmpty then none
    else some (cs.takeWhile isBareKeyChar, cs.dropWhile isBareKeyChar)

def dottedKey (cs : List Char) : Read (List String) :=
  match simpleKey (skipBlanks cs) with
  | none => none
  | some (k, rest) =>
    match skipBlanks rest with
    | '.' :: after =>
      if after.length < cs.length then
        (dottedKey after).map fun x => (String.ofList k :: x.1, x.2)
      else none
    | rest => some ([String.ofList k], rest)
termination_by cs.length

def maxDepth : Nat := 80

/-- A key with fewer parts than the greatest depth. -/
def key (cs : List Char) : Read (List String) :=
  match dottedKey cs with
  | some (path, rest) => if path.length < maxDepth then some (path, rest) else none
  | none => none

end InstallLocator.Toml
