import InstallLocator.Number.Binary64

/-!
# TOML documents as trees

Keys and values come in statements: an assignment, the header of a table, the
header of an element of an array of tables. The statements build one tree.
How a table came about decides what may still be added to it: a table with a
header of its own takes no second header and no dotted key from outside, one
made by a dotted key takes further dotted keys, one that so far only leads to
others may still get its header, and a table in braces is closed.
-/

set_option autoImplicit false

namespace InstallLocator.Toml

inductive TableKind
  | header
  | leading
  | dotted
  | braces
deriving DecidableEq, Repr

inductive Item
  | text (s : String)
  | integer (n : Int)
  | float (x : Binary64)
  | boolean (b : Bool)
  | moment
  | array (items : List Item)
  | table (kind : TableKind) (pairs : List (String × Item))
  | tables (elements : List (List (String × Item)))

abbrev Pairs := List (String × Item)

inductive Statement
  | assign (path : List String) (key : String) (value : Item)
  | table (path : List String) (key : String)
  | element (path : List String) (key : String)

namespace Pairs

def find? (key : String) (ps : Pairs) : Option Item :=
  (List.find? (fun p => p.1 = key) ps).map Prod.snd

def replace (key : String) (item : Item) (ps : Pairs) : Pairs :=
  ps.map fun p => if p.1 = key then (key, item) else p

def add? (key : String) (item : Item) (ps : Pairs) : Option Pairs :=
  if (find? key ps).isSome then none else some (ps ++ [(key, item)])

def onLast (f : Pairs → Option Pairs) (elements : List Pairs) : Option (List Pairs) :=
  match elements.getLast? with
  | some e => (f e).map fun e => elements.dropLast ++ [e]
  | none => none

/-- Puts a value at a dotted key. `direct` says whether the table reached so
far takes keys of its own in this way. -/
def assign (key : String) (value : Item) : List String → Bool → Pairs → Option Pairs
  | [], direct, ps => if direct then add? key value ps else none
  | p :: path, _, ps =>
    match find? p ps with
    | none =>
      (assign key value path true []).map fun inner => ps ++ [(p, .table .dotted inner)]
    | some (.table .dotted inner) =>
      (assign key value path true inner).map fun inner => replace p (.table .dotted inner) ps
    | some (.table .leading inner) =>
      (assign key value path false inner).map fun inner => replace p (.table .leading inner) ps
    | some (.tables elements) =>
      (onLast (assign key value path false) elements).map fun es => replace p (.tables es) ps
    | some _ => none

def within (f : Pairs → Option Pairs) : List String → Pairs → Option Pairs
  | [], ps => f ps
  | p :: path, ps =>
    match find? p ps with
    | none => (within f path []).map fun inner => ps ++ [(p, .table .leading inner)]
    | some (.table .braces _) => none
    | some (.table kind inner) =>
      (within f path inner).map fun inner => replace p (.table kind inner) ps
    | some (.tables elements) =>
      (onLast (within f path) elements).map fun es => replace p (.tables es) ps
    | some _ => none

def descend? : List String → Pairs → Option Pairs
  | [], ps => some ps
  | p :: path, ps =>
    match find? p ps with
    | none => some []
    | some (.table .braces _) => none
    | some (.table _ inner) => descend? path inner
    | some (.tables elements) => elements.getLast?.bind (descend? path)
    | some _ => none

end Pairs

inductive Target
  | root
  | table (path : List String) (key : String)
  | element (path : List String) (key : String)

/-- The tree so far, without the table that is being filled. -/
structure Draft where
  root : Pairs
  target : Target
  pairs : Pairs

namespace Draft

def start : Draft := ⟨[], .root, []⟩

def close (d : Draft) : Option Pairs :=
  match d.target with
  | .root => some d.pairs
  | .table path key => d.root.within (Pairs.add? key (.table .header d.pairs)) path
  | .element path key =>
    d.root.within (fun ps =>
      match Pairs.find? key ps with
      | some (.tables es) => some (ps.replace key (.tables (es ++ [d.pairs])))
      | _ => none) path

/-- A header may take over a table that so far only leads to others. The table
then counts from where its header stands. -/
def open? (root : Pairs) (path : List String) (key : String) : Option Draft := do
  let parent ← root.descend? path
  match Pairs.find? key parent with
  | none => return ⟨← root.within some path, .table path key, []⟩
  | some (.table .leading inner) =>
    let root ← root.within (fun ps => some (ps.filter fun p => p.1 ≠ key)) path
    return ⟨root, .table path key, inner⟩
  | some _ => none

def openElement? (root : Pairs) (path : List String) (key : String) : Option Draft := do
  let root ← root.within (fun ps =>
    match Pairs.find? key ps with
    | none => some (ps ++ [(key, .tables [])])
    | some (.tables _) => some ps
    | some _ => none) path
  return ⟨root, .element path key, []⟩

def step (d : Draft) : Statement → Option Draft
  | .assign path key value =>
    (Pairs.assign key value path true d.pairs).map fun ps => { d with pairs := ps }
  | .table path key => do open? (← d.close) path key
  | .element path key => do openElement? (← d.close) path key

end Draft

def assemble (statements : List Statement) : Option Pairs := do
  (← statements.foldlM Draft.step .start).close

def braces (assignments : List (List String × String × Item)) : Option Item :=
  (assignments.foldlM (fun ps a => Pairs.assign a.2.1 a.2.2 a.1 true ps) []).map (.table .braces)

end InstallLocator.Toml
