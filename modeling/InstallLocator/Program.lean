import InstallLocator.CommandLine
import InstallLocator.Locator.Standard
import InstallLocator.Log.Filter
import InstallLocator.PlatformPaths
import InstallLocator.Report
import InstallLocator.Settings.Load

/-!
# The program

One run: read the command line and the settings, survey the standard chain,
print the record. Trouble with the settings and the choice of log level show
in the log alone. What is logged before the log level is known is lost.
-/

set_option autoImplicit false

namespace InstallLocator

/-- How a run ends: refused for its arguments, or with a status, what was
printed, the events logged, and the error it failed with. -/
inductive Outcome
  | refused (e : UsageError)
  | finished (status : Nat) (output : String) (log : List Event) (failure : Option String)

namespace Program

def refusedStatus : Nat := 2

structure Inputs where
  arguments : List String
  logVariable : Option String
  output : Sink

def configPath (o : Options) (paths : PlatformPaths) : Path :=
  match o.config with
  | some text => .ofText text
  | none => paths.configFile

def render (o : Options) (r : InstallRecord) : String :=
  if o.json then Report.json r else Report.lines r

def survey (h : Host) (o : Options) (settings : Settings × List String) : Logged Locator :=
  let paths := (PlatformPaths.resolve h.environment).value
  let fresh := Locator.ofSettings settings.1 paths.home
  let located := fresh.locate h
  ⟨located.value,
    [.loggingStarted, .starting (configPath o paths)] ++ settings.2.map .settingWarning ++
      [.chainBuilt fresh.strategyNames] ++ located.events ++ located.value.summary⟩

def loadSettings (h : Host) (o : Options) : Settings × List String :=
  let paths := (PlatformPaths.resolve h.environment).value
  Settings.load h (configPath o paths) o.config.isSome

def runWith (h : Host) (i : Inputs) (o : Options) : Outcome :=
  let settings := loadSettings h o
  let filter := Filter.select i.logVariable o.debug settings.1.logLevel
  let located := survey h o settings
  let passed (events : List Event) := events.filter filter.passes
  match i.output.write (render o located.value.record) with
  | .ok text => .finished 0 text (passed located.events) none
  | .error cause =>
    let message := (OutputError.ofWrite cause).message
    .finished 1 "" (passed (located.events ++ [.printFailed message])) (some message)

def run (h : Host) (i : Inputs) : Outcome :=
  match CommandLine.parse i.arguments with
  | .error e => .refused e
  | .ok (.run o) => runWith h i o
  | .ok r =>
    let text := r.text?.getD ""
    .finished 0 ((i.output.write text).toOption.getD "") [] none

def levelCounts (log : List Event) : List (Level × Nat) :=
  (Level.all.map fun l => (l, log.countP fun e => e.level == l)).filter fun x => x.2 ≠ 0

end Program
end InstallLocator
