import InstallLocator.Record
import InstallLocator.Strategy.Basic

/-!
# The locator

A chain of strategies is probed in order until every region is resolved. The
first usable candidate of a region is its install. Each survey starts from an
empty record and replaces the one before it as a whole; reading the record
asks no strategy.
-/

set_option autoImplicit false

namespace InstallLocator

/-- An install directory must be given by an absolute path that leads to a
directory. -/
def checkInstallDirectory (h : Host) (p : Path) : Except PathProblem Unit :=
  if p.bytes = [] then .error .empty
  else if !p.isAbsolute then .error .relative
  else match h.stat p with
    | .ok e => if e.isDirectory then .ok () else .error .notADirectory
    | .error _ => .error .missing

/-- What a survey of a chain has found, and how many strategies it probed. -/
structure Survey where
  record : InstallRecord
  probed : Nat

namespace Survey

def accept (h : Host) (r : InstallRecord) (c : Candidate) : Logged InstallRecord :=
  if r.contains c.region then ⟨r, [.alreadyResolved c]⟩
  else match checkInstallDirectory h c.path with
    | .error problem => ⟨r, [.candidateRejected c problem]⟩
    | .ok () => ⟨(r.insertFirst c.region ⟨c.path, c.source⟩).1, [.candidateAccepted c]⟩

def acceptAll (h : Host) : InstallRecord → List Candidate → Logged InstallRecord
  | r, [] => ⟨r, []⟩
  | r, c :: cs =>
    let first := accept h r c
    let rest := acceptAll h first.value cs
    ⟨rest.value, first.events ++ rest.events⟩

def probe (h : Host) (r : InstallRecord) (s : Strategy) : Logged InstallRecord :=
  let found := s.probe h
  match found.value with
  | .error e => ⟨r, found.events ++ [.strategyFailed s.name e]⟩
  | .ok candidates =>
    let accepted := acceptAll h r candidates
    ⟨accepted.value,
      found.events ++ .strategyProbed s.name candidates.length :: accepted.events⟩

/-- Probes the strategies one after the other while a region is unresolved. -/
def run (h : Host) : InstallRecord → List Strategy → Logged Survey
  | r, [] => ⟨⟨r, 0⟩, []⟩
  | r, s :: rest =>
    if r.isComplete then ⟨⟨r, 0⟩, [.restSkipped s.name]⟩
    else
      let first := probe h r s
      let later := run h first.value rest
      ⟨⟨later.value.record, later.value.probed + 1⟩, first.events ++ later.events⟩

end Survey

/-- `probes` counts, for each strategy, the surveys that probed it. -/
structure Locator where
  chain : List Strategy
  record : InstallRecord
  probes : List Nat

namespace Locator

def ofChain (chain : List Strategy) : Locator :=
  ⟨chain, .empty, chain.map fun _ => 0⟩

def strategyNames (l : Locator) : List String := l.chain.map Strategy.name

def locate (h : Host) (l : Locator) : Logged Locator :=
  let survey := Survey.run h .empty l.chain
  let counts := (l.probes.take survey.value.probed).map (· + 1) ++
    l.probes.drop survey.value.probed
  ⟨{ l with record := survey.value.record, probes := counts }, survey.events⟩

def summary (l : Locator) : List Event :=
  if l.record.isEmpty then [.nothingFound]
  else .installsFound l.record.size ::
    l.record.entries.map fun x => .installFound x.1 x.2.path x.2.source

def directory? (l : Locator) (s : Region) : Option Path := l.record.path? s

def shown (l : Locator) : String :=
  "GameDirectory \x7b strategies: " ++ Event.shownNames l.strategyNames ++
    ", record: " ++ l.record.shown ++ " \x7d"

end Locator
end InstallLocator
