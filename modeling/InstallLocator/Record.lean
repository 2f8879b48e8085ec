import InstallLocator.Path
import InstallLocator.RegionMap
import InstallLocator.Text.Quoted

/-!
# The install record

At most one install for each region. The first one stays: a region that is
resolved takes no other.
-/

set_option autoImplicit false

namespace InstallLocator

structure Install where
  path : Path
  source : String
deriving DecidableEq

abbrev InstallRecord := RegionMap Install

namespace InstallRecord

def contains (r : InstallRecord) (s : Region) : Bool := (r.get s).isSome

/-- The record with the install if the region had none, and whether it had none. -/
def insertFirst (r : InstallRecord) (s : Region) (i : Install) : InstallRecord × Bool :=
  if r.contains s then (r, false) else (r.set s i, true)

theorem insertFirst_get (r : InstallRecord) (s : Region) (i : Install) (q : Region) :
    (r.insertFirst s i).1.get q = (r.get q).or (if s = q then some i else none) := by
  unfold insertFirst
  cases hs : r.get s with
  | some j =>
    rw [if_pos (by rw [contains, hs]; rfl)]
    by_cases hq : s = q
    · subst hq
      rw [hs]
      rfl
    · rw [if_neg hq, Option.or_none]
  | none =>
    rw [if_neg (by rw [contains, hs]; exact Bool.false_ne_true), RegionMap.get_set]
    by_cases hq : s = q
    · subst hq
      rw [hs, if_pos rfl, Option.none_or]
    · rw [if_neg hq, if_neg (Ne.symm hq), Option.or_none]

theorem insertFirst_snd (r : InstallRecord) (s : Region) (i : Install) :
    (r.insertFirst s i).2 = (r.get s).isNone := by
  unfold insertFirst contains
  cases r.get s <;> rfl

def path? (r : InstallRecord) (s : Region) : Option Path := (r.get s).map Install.path

def size (r : InstallRecord) : Nat := r.entries.length

def isEmpty (r : InstallRecord) : Bool := r.entries.isEmpty

def isComplete (r : InstallRecord) : Bool := Region.all.all r.contains

def regions (r : InstallRecord) : List Region := Region.all.filter r.contains

def paths (r : InstallRecord) : List Path := Region.all.filterMap r.path?

def shownInstall (i : Install) : String :=
  "ResolvedInstall \x7b path: " ++ Quoted.bytes i.path.bytes ++ ", source: " ++
    Quoted.text i.source ++ " \x7d"

def shown (r : InstallRecord) : String :=
  "InstallRecord \x7b entries: \x7b" ++
    String.intercalate ", " (r.entries.map fun x => x.1.title ++ ": " ++ shownInstall x.2) ++
    "\x7d \x7d"

end InstallRecord
end InstallLocator
