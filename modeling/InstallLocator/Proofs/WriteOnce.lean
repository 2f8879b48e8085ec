import InstallLocator.Proofs.FirstUsable
import InstallLocator.Proofs.History
import Mathlib.Data.List.Dedup

/-!
# A record is written once

The first install that is inserted for a region stays, and every later insertion
for it is refused. However the installs came in, all that a record tells agrees
with what it holds for each region, and its regions are listed in their order: the
record is an ordered map whose keys are the regions.
-/

set_option autoImplicit false

namespace InstallLocator

namespace InstallRecord

/-- The record after these insertions, and what each of them answered. -/
def insertAll (r : InstallRecord) : List (Region × Install) → InstallRecord × List Bool
  | [] => (r, [])
  | c :: cs =>
    let first := r.insertFirst c.1 c.2
    let rest := first.1.insertAll cs
    (rest.1, first.2 :: rest.2)

/-- The install of the first of these insertions that is for the region. -/
def firstFor (calls : List (Region × Install)) (s : Region) : Option Install :=
  (calls.find? fun c => c.1 = s).map Prod.snd

theorem firstFor_cons (c : Region × Install) (cs : List (Region × Install)) (s : Region) :
    firstFor (c :: cs) s = (if c.1 = s then some c.2 else none).or (firstFor cs s) := by
  unfold firstFor
  by_cases hc : c.1 = s <;> simp [hc]

theorem firstFor_isSome {calls : List (Region × Install)} {s : Region} :
    (firstFor calls s).isSome = true ↔ s ∈ calls.map Prod.fst := by
  simp [firstFor, List.find?_isSome]

theorem insertAll_get (r : InstallRecord) (calls : List (Region × Install)) (s : Region) :
    (r.insertAll calls).1.get s = (r.get s).or (firstFor calls s) := by
  induction calls generalizing r with
  | nil => rw [insertAll, firstFor, List.find?_nil, Option.map_none, Option.or_none]
  | cons c cs ih => rw [insertAll, ih, insertFirst_get, Option.or_assoc, firstFor_cons]

theorem insertAll_answer (r : InstallRecord) (calls : List (Region × Install)) (k : Nat) :
    (r.insertAll calls).2[k]? = calls[k]?.map fun c =>
      (r.get c.1).isNone && decide (c.1 ∉ (calls.take k).map Prod.fst) := by
  induction calls generalizing r k with
  | nil => simp [insertAll]
  | cons c cs ih =>
    cases k with
    | zero => simp [insertAll, insertFirst_snd]
    | succ k =>
      rw [insertAll, List.getElem?_cons_succ, List.getElem?_cons_succ, ih]
      refine congrArg (fun f => Option.map f cs[k]?) (funext fun d => ?_)
      simp only [insertFirst_get, List.take_succ_cons, List.map_cons, List.mem_cons]
      by_cases hd : c.1 = d.1
      · simp [hd]
      · simp [hd, Ne.symm hd]

/-- All that a record tells agrees with what it holds for each region. Its entries
are those of the resolved regions, each of them once, in the order of the regions,
and no other list is in this order and has the same entries. -/
structure Coherent (r : InstallRecord) : Prop where
  contains : ∀ s, r.contains s = (r.get s).isSome
  path : ∀ s, r.path? s = (r.get s).map Install.path
  isEmpty : r.isEmpty = true ↔ ∀ s, r.get s = none
  size : r.size = (Region.all.filter fun s => (r.get s).isSome).length
  isComplete : r.isComplete = true ↔ ∀ s, (r.get s).isSome = true
  isComplete_size : r.isComplete = true ↔ r.size = 3
  entries : ∀ s i, (s, i) ∈ r.entries ↔ r.get s = some i
  resolved : r.entries.map Prod.fst = Region.all.filter fun s => (r.get s).isSome
  ordered : r.entries.Pairwise fun e f => e.1 < f.1
  unique : ∀ es : List (Region × Install), es.Pairwise (fun e f => e.1 < f.1) →
    (∀ s i, (s, i) ∈ es ↔ r.get s = some i) → es = r.entries
  regions : r.regions = r.entries.map Prod.fst
  paths : r.paths = r.entries.map fun e => e.2.path

theorem entries_regions (r : InstallRecord) :
    r.entries.map Prod.fst = Region.all.filter fun s => (r.get s).isSome := by
  rw [RegionMap.entries, List.map_filterMap, ← List.filterMap_eq_filter]
  refine congrArg (Region.all.filterMap ·) (funext fun s => ?_)
  cases hs : r.get s <;> simp [Option.guard, hs]

theorem entries_paths (r : InstallRecord) : r.paths = r.entries.map fun e => e.2.path := by
  rw [RegionMap.entries, List.map_filterMap, paths]
  refine congrArg (Region.all.filterMap ·) (funext fun s => ?_)
  rw [path?, Option.map_map]
  rfl

theorem size_eq (r : InstallRecord) :
    r.size = (Region.all.filter fun s => (r.get s).isSome).length := by
  rw [size, ← entries_regions, List.length_map]

theorem isComplete_iff_size {r : InstallRecord} : r.isComplete = true ↔ r.size = 3 := by
  have hall : Region.all.length = 3 := rfl
  rw [size_eq, ← hall, List.length_filter_eq_length_iff, isComplete, List.all_eq_true]
  rfl

theorem entries_ordered (r : InstallRecord) :
    r.entries.Pairwise fun e f => e.1 < f.1 := by
  have hsub : (r.entries.map Prod.fst).Pairwise (· < ·) := by
    rw [entries_regions]
    exact Region.all_ordered.sublist List.filter_sublist
  rwa [List.pairwise_map] at hsub

theorem nodup_of_ordered {es : List (Region × Install)}
    (hes : es.Pairwise fun e f => e.1 < f.1) : es.Nodup :=
  hes.imp fun hlt heq => absurd (heq ▸ hlt) (Region.lt_irrefl _)

theorem entries_nodup (r : InstallRecord) : r.entries.Nodup :=
  nodup_of_ordered r.entries_ordered

/-- The order of the regions and what the record holds fix its entries. -/
theorem eq_entries {r : InstallRecord} {es : List (Region × Install)}
    (hes : es.Pairwise fun e f => e.1 < f.1) (hmem : ∀ s i, (s, i) ∈ es ↔ r.get s = some i) :
    es = r.entries := by
  have hperm : es.Perm r.entries :=
    (List.perm_ext_iff_of_nodup (nodup_of_ordered hes) r.entries_nodup).2
      fun e => (hmem e.1 e.2).trans RegionMap.mem_entries.symm
  exact List.Perm.eq_of_pairwise (fun _ _ _ _ hlt hgt => absurd hgt (Region.lt_asymm hlt)) hes
    r.entries_ordered hperm

theorem isEmpty_iff {r : InstallRecord} : r.isEmpty = true ↔ ∀ s, r.get s = none := by
  have hnone : r.entries = [] ↔ r.entries.map Prod.fst = [] := List.map_eq_nil_iff.symm
  rw [isEmpty, List.isEmpty_iff, hnone, entries_regions, List.filter_eq_nil_iff]
  simp [Region.mem_all]

theorem coherent (r : InstallRecord) : r.Coherent where
  contains _ := rfl
  path _ := rfl
  isEmpty := isEmpty_iff
  size := r.size_eq
  isComplete := Survey.isComplete_iff
  isComplete_size := isComplete_iff_size
  entries _ _ := RegionMap.mem_entries
  resolved := r.entries_regions
  ordered := r.entries_ordered
  unique _ := eq_entries
  regions := r.entries_regions.symm
  paths := r.entries_paths

instance : Std.TransOrd Region where
  eq_swap {r s} := by cases r <;> cases s <;> rfl
  isLE_trans {r s t} := by cases r <;> cases s <;> cases t <;> decide

instance : Std.LawfulEqOrd Region where
  compare_self {r} := by cases r <;> rfl
  eq_of_compare {r s} := by cases r <;> cases s <;> decide

/-- The ordered map and the record have the same install for each region. -/
def Mirrors (m : Std.TreeMap Region Install) (r : InstallRecord) : Prop :=
  ∀ s, m[s]? = r.get s

def insertOrdered (m : Std.TreeMap Region Install) (calls : List (Region × Install)) :
    Std.TreeMap Region Install :=
  calls.foldl (fun m c => m.insertIfNew c.1 c.2) m

namespace Mirrors

variable {m : Std.TreeMap Region Install} {r : InstallRecord}

theorem mem_iff (hm : Mirrors m r) {s : Region} : s ∈ m ↔ (r.get s).isSome = true := by
  rw [← hm s, Std.TreeMap.isSome_getElem?_iff_mem]

theorem insertFirst (hm : Mirrors m r) (s : Region) (i : Install) :
    Mirrors (m.insertIfNew s i) (r.insertFirst s i).1 := by
  intro q
  simp only [Std.TreeMap.getElem?_insertIfNew, insertFirst_get, hm q, hm.mem_iff,
    Std.LawfulEqOrd.compare_eq_iff_eq]
  by_cases hq : s = q
  · subst hq
    cases hs : r.get s <;> simp
  · simp [hq]

theorem insertAll (hm : Mirrors m r) (calls : List (Region × Install)) :
    Mirrors (insertOrdered m calls) (r.insertAll calls).1 := by
  induction calls generalizing m r with
  | nil => exact hm
  | cons c cs ih => exact ih (hm.insertFirst c.1 c.2)

theorem toList (hm : Mirrors m r) : m.toList = r.entries :=
  eq_entries Std.TreeMap.ordered_keys_toList fun s i => by
    rw [Std.TreeMap.mem_toList_iff_getElem?_eq_some, hm s]

end Mirrors

theorem insertAll_size (calls : List (Region × Install)) :
    (insertAll .empty calls).1.size = (calls.map Prod.fst).dedup.length := by
  have hget : ∀ s, ((insertAll .empty calls).1.get s).isSome = true ↔ s ∈ calls.map Prod.fst := by
    intro s
    rw [insertAll_get, RegionMap.get_empty, Option.none_or, firstFor_isSome]
  have hall : Region.all.Nodup := by decide
  rw [size_eq]
  refine List.Perm.length_eq
    ((List.perm_ext_iff_of_nodup (hall.filter _) (List.nodup_dedup _)).2 fun s => ?_)
  rw [List.mem_filter, List.mem_dedup, hget]
  exact and_iff_right (Region.mem_all s)

/-- Starting from nothing, a record holds for each region the first install that
was inserted for it. Only this insertion succeeded, all ways to read the record
agree, its entries are those of an ordered map, and a locator with this record
lists its regions and paths in their order. -/
theorem insertAll_first (calls : List (Region × Install)) :
    (∀ s, (insertAll .empty calls).1.get s = firstFor calls s) ∧
      (∀ k : Nat, (insertAll .empty calls).2[k]? =
        calls[k]?.map fun c => decide (c.1 ∉ (calls.take k).map Prod.fst)) ∧
      (insertAll .empty calls).1.Coherent ∧
      (insertAll .empty calls).1.size = (calls.map Prod.fst).dedup.length ∧
      (insertAll .empty calls).1.entries = (insertOrdered ∅ calls).toList ∧
      ∀ chain probes, let l : Locator := ⟨chain, (insertAll .empty calls).1, probes⟩
        l.answer .regions = .regions (l.record.entries.map Prod.fst) ∧
        l.answer .paths = .paths (l.record.entries.map fun e => e.2.path) := by
  have hempty : Mirrors ∅ .empty := fun s => by
    rw [RegionMap.get_empty, Std.TreeMap.getElem?_emptyc]
  refine ⟨fun s => ?_, fun k => ?_, coherent _, insertAll_size calls,
    (hempty.insertAll calls).toList.symm, fun chain probes => ⟨?_, ?_⟩⟩
  · rw [insertAll_get, RegionMap.get_empty, Option.none_or]
  · simp only [insertAll_answer, RegionMap.get_empty, Option.isNone_none, Bool.true_and]
  · exact congrArg Answer.regions (coherent _).regions
  · exact congrArg Answer.paths (coherent _).paths

/-- The second install of a region is refused, and the order is that of the regions. -/
example :
    let a : Install := ⟨.ofText "/a", "override"⟩
    let b : Install := ⟨.ofText "/b", "steam"⟩
    let all := insertAll .empty [(.publicTest, a), (.worldwide, b), (.publicTest, b)]
    all.2 = [true, true, false] ∧ all.1.entries = [(.worldwide, b), (.publicTest, a)] := by decide

end InstallRecord
end InstallLocator
