import InstallLocator.Text.Utf8

/-!
# Paths

A path is a sequence of bytes, never normalised. It is cut at slashes only to
be compared by components, to find its parent, and to be walked.
-/

set_option autoImplicit false

namespace InstallLocator

abbrev Name := Bytes

def Name.le : Name → Name → Bool
  | [], _ => true
  | _ :: _, [] => false
  | a :: as, b :: bs => a < b || (a == b && Name.le as bs)

theorem Name.le_refl (n : Name) : n.le n = true := by
  induction n with
  | nil => rfl
  | cons a as ih => simp [Name.le, ih]

def textLe (a b : String) : Bool :=
  Name.le (Utf8.encode a.toList) (Utf8.encode b.toList)

structure Path where
  bytes : Bytes
deriving DecidableEq

namespace Path

def slash : UInt8 := 0x2F
def dot : UInt8 := 0x2E

def currentName : Name := [dot]
def parentName : Name := [dot, dot]

/-- What stands for the slash at the end of a path among the names to take. -/
def finalSlash : Name := []

def ofText (s : String) : Path := ⟨Utf8.encode s.toList⟩

/-- The text of a path, each broken part of it as U+FFFD. -/
def shown (p : Path) : String := String.ofList (Utf8.decodeLossy p.bytes)

def text? (p : Path) : Option String := (Utf8.decode? p.bytes).map String.ofList

def isAbsolute (p : Path) : Bool := p.bytes.head? == some slash

/-- The second path if it is absolute, else the first one, a slash if it needs
one, and the second. -/
def join (a b : Path) : Path :=
  if b.isAbsolute then b
  else if a.bytes = [] ∨ a.bytes.getLast? = some slash then ⟨a.bytes ++ b.bytes⟩
  else ⟨a.bytes ++ slash :: b.bytes⟩

def child (p : Path) (n : Name) : Path := p.join ⟨n⟩

def segments : Bytes → List Name
  | [] => [[]]
  | b :: bs =>
    if b = slash then [] :: segments bs
    else match segments bs with
      | s :: ss => (b :: s) :: ss
      | [] => [[b]]

/-- The names a walk takes one after the other. A slash at the end asks for a
directory, though not, as a final `.` does, for one that can be entered. -/
def steps (bs : Bytes) : List Name :=
  (segments bs).filter (· ≠ []) ++ (if bs.getLast? = some slash then [finalSlash] else [])

inductive Component
  | root
  | current
  | parent
  | name (n : Name)
deriving DecidableEq

def Component.ofName (n : Name) : Component :=
  if n = currentName then .current else if n = parentName then .parent else .name n

/-- A path as components: repeated slashes and inner `.` do not count, a `.`
at the start of a relative path does. -/
def components (p : Path) : List Component :=
  let names := segments p.bytes
  let lead :=
    if p.isAbsolute then [Component.root]
    else if names.head? = some currentName then [.current] else []
  lead ++ (names.filter fun n => n ≠ [] ∧ n ≠ currentName).map Component.ofName

def fileName? (p : Path) : Option Name :=
  match p.components.getLast? with
  | some (.name n) => some n
  | _ => none

/-- A reversed path without the slashes and `.` components at its end, the
first `keep` bytes left alone. -/
def trimEnd (keep : Nat) : Bytes → Bytes
  | [] => []
  | a :: rest =>
    if rest.length < keep then a :: rest
    else if a = slash then trimEnd keep rest
    else if a = dot ∧ rest.head? = some slash then trimEnd keep rest
    else a :: rest

/-- The path without its last component, and without the slashes and `.`
components before that. A path of one component has the empty parent; the
root and the empty path have none. -/
def parent? (p : Path) : Option Path :=
  let keep :=
    if p.isAbsolute then 1
    else if (segments p.bytes).head? = some currentName then 1 else 0
  if p.components.length ≤ keep then
    if p.components = [.current] then some ⟨[]⟩ else none
  else
    let body := trimEnd keep p.bytes.reverse
    let size := min (body.takeWhile (· ≠ slash)).length (body.length - keep)
    some ⟨(trimEnd keep (body.drop size)).reverse⟩

end Path
end InstallLocator
