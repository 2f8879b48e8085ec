import InstallLocator.Toml.Number

/-!
# Reading TOML documents

Values nest, and no more than a fixed number of levels deep. A document is a
list of statements, one a line; the tree that they build is its answer.
-/

set_option autoImplicit false

namespace InstallLocator.Toml

def arrayItems (item : List Char → Read Item) (cs : List Char) : Read (List Item) :=
  match item cs with
  | none => none
  | some (v, rest) =>
    match skipLines false rest with
    | some (']' :: rest) => some ([v], rest)
    | some (',' :: rest) =>
      match skipLines false rest with
      | some (']' :: rest) => some ([v], rest)
      | some next =>
        if next.length < cs.length then
          (arrayItems item next).map fun x => (v :: x.1, x.2)
        else none
      | none => none
    | _ => none
termination_by cs.length

def keyValue (item : List Char → Read Item) (cs : List Char) :
    Option ((List String × String × Item) × List Char) := do
  let (path, rest) ← key cs
  let name ← path.getLast?
  let (v, rest) ← item (skipBlanks (← expect '=' rest))
  return ((path.dropLast, name, v), rest)

def braceItems (item : List Char → Read Item) (cs : List Char) :
    Read (List (List String × String × Item)) :=
  match keyValue item cs with
  | none => none
  | some (a, rest) =>
    match skipBlanks rest with
    | '\x7d' :: rest => some ([a], rest)
    | ',' :: next =>
      if next.length < cs.length then
        (braceItems item next).map fun x => (a :: x.1, x.2)
      else none
    | _ => none
termination_by cs.length

/-- A value that may still nest so many levels. -/
def value : Nat → List Char → Read Item
  | depth, cs =>
    match cs with
    | '"' :: _ => (string cs).map fun x => (.text (String.ofList x.1), x.2)
    | '\'' :: _ => (string cs).map fun x => (.text (String.ofList x.1), x.2)
    | '[' :: rest =>
      match depth with
      | 0 => none
      | depth + 1 =>
        match skipLines false rest with
        | some (']' :: rest) => some (.array [], rest)
        | some rest => (arrayItems (value depth) rest).map fun x => (.array x.1, x.2)
        | none => none
    | '\x7b' :: rest =>
      match depth with
      | 0 => none
      | depth + 1 =>
        match skipBlanks rest with
        | '\x7d' :: rest => some (.table .braces [], rest)
        | rest =>
          match braceItems (value depth) rest with
          | some (assignments, rest) => (braces assignments).map fun t => (t, rest)
          | none => none
    | 't' :: 'r' :: 'u' :: 'e' :: rest => some (.boolean true, rest)
    | 'f' :: 'a' :: 'l' :: 's' :: 'e' :: rest => some (.boolean false, rest)
    | _ => number cs

def header (close : List Char) (cs : List Char) :
    Option ((List String × String) × List Char) := do
  let (path, rest) ← key cs
  let name ← path.getLast?
  return ((path.dropLast, name), ← close.isPrefixOf? rest)

def statement (cs : List Char) : Read Statement :=
  match cs with
  | '[' :: '[' :: rest => (header [']', ']'] rest).map fun x => (.element x.1.1 x.1.2, x.2)
  | '[' :: rest => (header [']'] rest).map fun x => (.table x.1.1 x.1.2, x.2)
  | _ => (keyValue (value (maxDepth - 1)) cs).map fun x => (.assign x.1.1 x.1.2.1 x.1.2.2, x.2)

def statements (cs : List Char) : Option (List Statement) :=
  let line := skipBlanks cs
  if line.isEmpty then some []
  else match lineEnd? line with
    | some next => if next.length < cs.length then statements next else none
    | none =>
      match statement line with
      | none => none
      | some (s, rest) =>
        match lineEnd? rest with
        | none => none
        | some next =>
          if next.length < cs.length then (statements next).map (s :: ·) else none
termination_by cs.length

/-- A byte order mark at the start does not count. -/
def dropMark : List Char → List Char
  | '\uFEFF' :: rest => rest
  | cs => cs

def parse (text : String) : Option Pairs :=
  (statements (dropMark text.toList)).bind assemble

end InstallLocator.Toml
