import InstallLocator.Text.AsciiCase
import InstallLocator.Text.Digits

/-!
# Log levels

Five levels, the gravest first. A threshold lets the events of a level and of
all graver levels pass, or none.
-/

set_option autoImplicit false

namespace InstallLocator

inductive Level
  | error
  | warn
  | info
  | debug
  | trace
deriving DecidableEq, Repr

namespace Level

def all : List Level := [error, warn, info, debug, trace]

def name : Level → String
  | error => "error"
  | warn => "warn"
  | info => "info"
  | debug => "debug"
  | trace => "trace"

def title : Level → String
  | error => "ERROR"
  | warn => "WARN"
  | info => "INFO"
  | debug => "DEBUG"
  | trace => "TRACE"

def rank : Level → Nat
  | error => 1
  | warn => 2
  | info => 3
  | debug => 4
  | trace => 5

end Level

/-- The least grave level that passes; none for no level at all. -/
structure Threshold where
  level : Option Level
deriving DecidableEq, Repr

namespace Threshold

def all : List Threshold := ⟨none⟩ :: Level.all.map fun l => ⟨some l⟩

def rank (t : Threshold) : Nat :=
  match t.level with
  | none => 0
  | some l => l.rank

def name (t : Threshold) : String :=
  match t.level with
  | none => "off"
  | some l => l.name

def passes (t : Threshold) (l : Level) : Bool := l.rank ≤ t.rank

def parse? (text : String) : Option Threshold :=
  match parseNatural? all.length text.toList with
  | some n => all.find? fun t => t.rank == n
  | none => all.find? fun t => sameIgnoringCase t.name text

end Threshold
end InstallLocator
