import InstallLocator.Log.Directive
import InstallLocator.Log.Event

/-!
# Log filters

A filter is a list of directives, the most special first. The first one that is
about an event decides whether it passes, and what no directive is about does
not pass. Directives about spans or about the values of fields let no event
pass, since the program opens no spans, but a filter keeps them.

What selects the filter: the environment before the debug flag, that before
the settings, and those before the default.
-/

set_option autoImplicit false

namespace InstallLocator

structure EventRule where
  target : Option String
  fields : List String
  threshold : Threshold
deriving DecidableEq

namespace EventRule

def matchesEvent (r : EventRule) (e : Event) : Bool :=
  (r.target.all fun t => t.toList.isPrefixOf e.target.toList) && r.fields.all e.hasField

def order (r s : EventRule) : Ordering :=
  (compare (r.target.map String.utf8ByteSize) (s.target.map String.utf8ByteSize))
    |>.then (compare r.fields.length s.fields.length)
    |>.then (compare r.target s.target)
    |>.then (compare r.fields s.fields)

def shown (r : EventRule) : String :=
  let inner := if r.fields.isEmpty then none else some (Directive.shownFields r.fields)
  Directive.render r.target inner r.threshold

end EventRule

/-- A directive that no value and no span restricts is about events too. -/
def Directive.eventRule? (d : Directive) : Option EventRule :=
  if d.span.isSome || d.fields.any (fun f => f.value.isSome) then none
  else some ⟨d.target, d.fields.map FieldTest.name, d.threshold⟩

def Directive.isAboutSpans (d : Directive) : Bool :=
  d.span.isSome || !d.fields.isEmpty

structure Filter where
  events : List EventRule
  spans : List Directive
deriving DecidableEq

namespace Filter

/-- Puts an element before the first one that is less; one that is as special
as the element is replaced. -/
def insert {α : Type} (order : α → α → Ordering) (x : α) : List α → List α
  | [] => [x]
  | y :: ys =>
    match order x y with
    | .lt => y :: insert order x ys
    | .eq => x :: ys
    | .gt => x :: y :: ys

def sorted {α : Type} (order : α → α → Ordering) (xs : List α) : List α :=
  xs.foldl (fun ys x => insert order x ys) []

def ofDirectives (ds : List Directive) : Filter :=
  let (spans, plain) := ds.partition Directive.isAboutSpans
  ⟨sorted EventRule.order ((plain ++ spans).filterMap Directive.eventRule?),
    sorted Directive.order spans⟩

/-- Directives with commas between them. What is not a directive is passed
over, and if nothing is left, errors pass. -/
def parse (text : String) : Filter :=
  match (text.splitOn ",").filterMap Directive.parse? with
  | [] => ofDirectives [.errors]
  | ds => ofDirectives ds

def shown (f : Filter) : String :=
  String.intercalate "," (f.events.map EventRule.shown ++ f.spans.map Directive.shown)

def passes (f : Filter) (e : Event) : Bool :=
  match f.events.find? fun r => r.matchesEvent e with
  | some r => r.threshold.passes e.level
  | none => false

/-- `setting` is the text in the environment, if there is one. -/
def select (setting : Option String) (debug : Bool) (level : Option String) : Filter :=
  match setting with
  | some text => parse text
  | none =>
    if debug then parse Level.debug.name
    else parse (level.getD Constants.defaultLogLevel)

end Filter
end InstallLocator
