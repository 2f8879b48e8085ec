import InstallLocator.Region

/-!
# A value for each region

At most one value for each region, listed in the order of the regions whatever
the order in which they were set.
-/

set_option autoImplicit false

namespace InstallLocator

structure RegionMap (α : Type) where
  worldwide : Option α
  china : Option α
  publicTest : Option α
deriving DecidableEq

namespace RegionMap

def empty {α : Type} : RegionMap α := ⟨none, none, none⟩

def get {α : Type} (m : RegionMap α) : Region → Option α
  | .worldwide => m.worldwide
  | .china => m.china
  | .publicTest => m.publicTest

def set {α : Type} (m : RegionMap α) (r : Region) (a : α) : RegionMap α :=
  match r with
  | .worldwide => { m with worldwide := some a }
  | .china => { m with china := some a }
  | .publicTest => { m with publicTest := some a }

theorem ext_get {α : Type} {m n : RegionMap α} (h : ∀ r, m.get r = n.get r) : m = n := by
  have hw := h .worldwide
  have hc := h .china
  have hp := h .publicTest
  cases m
  cases n
  simp only [get] at hw hc hp
  rw [hw, hc, hp]

@[simp] theorem get_empty {α : Type} (r : Region) : (empty : RegionMap α).get r = none := by
  cases r <;> rfl

@[simp] theorem get_set {α : Type} (m : RegionMap α) (r s : Region) (a : α) :
    (m.set r a).get s = if s = r then some a else m.get s := by
  cases r <;> cases s <;> rfl

def entries {α : Type} (m : RegionMap α) : List (Region × α) :=
  Region.all.filterMap fun r => (m.get r).map (r, ·)

theorem mem_entries {α : Type} {m : RegionMap α} {r : Region} {a : α} :
    (r, a) ∈ m.entries ↔ m.get r = some a := by
  simp only [entries, List.mem_filterMap, Option.map_eq_some_iff]
  constructor
  · rintro ⟨s, _, b, hb, h⟩
    cases h
    exact hb
  · intro h
    exact ⟨r, Region.mem_all r, a, h, rfl⟩

end RegionMap
end InstallLocator
