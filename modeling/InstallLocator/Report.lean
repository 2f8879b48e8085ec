import InstallLocator.IoError
import InstallLocator.Json.Parser
import InstallLocator.Record

/-!
# The report

What the program prints: a line for the worldwide client and then one for each
region, or a JSON array with an object for each region. Paths are shown as
text in both.
-/

set_option autoImplicit false

namespace InstallLocator

namespace Report

def line (r : InstallRecord) (s : Region) : String :=
  match r.path? s with
  | some p => p.shown
  | none => ""

def lines (r : InstallRecord) : String :=
  String.join ((line r .worldwide :: Region.all.map (line r)).map (· ++ "\n"))

def optionalText (t : Option String) : Json :=
  match t with
  | some s => .text s
  | none => .null

def regionJson (r : InstallRecord) (s : Region) : Json :=
  .object
    [("server", .text s.mark),
     ("path", optionalText ((r.get s).map fun i => i.path.shown)),
     ("source", optionalText ((r.get s).map Install.source))]

def json (r : InstallRecord) : String :=
  Json.render (.array (Region.all.map (regionJson r))) ++ "\n"

end Report

/-- Where output goes: how many bytes there is room for, and what a write that
does not fit is refused with. -/
structure Sink where
  room : Option Nat
  refusal : IoError

namespace Sink

def unlimited : Sink := ⟨none, .noSpace⟩

def write (s : Sink) (text : String) : Except IoError String :=
  match s.room with
  | none => .ok text
  | some room => if text.utf8ByteSize ≤ room then .ok text else .error s.refusal

end Sink

inductive OutputError
  | json (e : Json.Error)
  | io (path : Path) (operation : String) (cause : IoError)

namespace OutputError

def message : OutputError → String
  | json e => "JSON error: " ++ e.message
  | io path operation cause =>
    "I/O error during " ++ operation ++ " on '" ++ path.shown ++ "': " ++ cause.message

def cause : OutputError → String
  | json e => e.message
  | io _ _ cause => cause.message

def ofWrite (cause : IoError) : OutputError := io (.ofText "<stdout>") "write" cause

end OutputError
end InstallLocator
