/-!
# Texts for a terminal

What can be seen of a text that a terminal would interpret: control characters
and escape sequences are left out, and only the tab and the characters that end
a line or a page stay. A sequence is read to its own end; a line end in one of
the short kinds breaks it off. So does a character that is not ASCII, and its
bytes after the first are then seen as damage.
-/

set_option autoImplicit false

namespace InstallLocator.Terminal

/-- What the characters read so far have begun: nothing, an escape, an escape
with intermediate characters, a control sequence, a string that only another
escape ends, or a command that the bell ends too. -/
inductive Mode
  | ground
  | escape
  | intermediate
  | control
  | string
  | command
deriving DecidableEq, Repr

def isLayout (c : Char) : Bool :=
  c == '\t' || c == '\n' || c == '\x0c' || c == '\r'

def Mode.graphic (m : Mode) (c : Char) : Mode :=
  match m with
  | .ground => .ground
  | .escape =>
    if c < '0' then .intermediate
    else if c = '[' then .control
    else if c = ']' then .command
    else if c = 'P' ∨ c = 'X' ∨ c = '^' ∨ c = '_' then .string
    else .ground
  | .intermediate => if c < '0' then .intermediate else .ground
  | .control => if c < '@' then .control else .ground
  | .string => .string
  | .command => .command

def Mode.step (m : Mode) (c : Char) : List Char × Mode :=
  if c = '\x1b' then ([], .escape)
  else if c = '\x18' ∨ c = '\x1a' then ([], .ground)
  else if 0x7F < c.toNat then
    if m = .ground then ([c], .ground) else (List.replicate (c.utf8Size - 1) '\uFFFD', .ground)
  else if c = '\x7f' then ([], m)
  else if ' ' ≤ c then (if m = .ground then [c] else [], m.graphic c)
  else if m = .string then ([], m)
  else if m = .command then ([], if c = '\x07' then .ground else m)
  else if isLayout c then ([c], .ground)
  else ([], m)

def visibleFrom (m : Mode) : List Char → List Char
  | [] => []
  | c :: cs => (m.step c).1 ++ visibleFrom (m.step c).2 cs

def visible (s : String) : String :=
  String.ofList (visibleFrom .ground s.toList)

def firstLine (s : String) : String :=
  let line := s.toList.takeWhile (· ≠ '\n')
  if line.length < s.toList.length ∧ line.getLast? = some '\r' then String.ofList line.dropLast
  else String.ofList line

end InstallLocator.Terminal
