import InstallLocator.Glob.Expand
import InstallLocator.Proofs.SameShape
import InstallLocator.Search.Walk

/-!
# Walks and expansions see the outline alone

On machines of the same outline a walk meets the same entries but for what files
hold, and a pattern stands for the same paths.
-/

set_option autoImplicit false

namespace InstallLocator

variable {h g : Host}

namespace Search

def Visit.outline (v : Visit) : Visit := v.map Entry.outline

theorem below_outline_succ (h : Host) (depth : Nat) (p : Path) :
    (below h (depth + 1) p).map Visit.outline =
      match (h.list p).map (List.map Entry.outline) with
      | .error e => [.error ⟨p, e⟩]
      | .ok entries => entries.flatMap fun x =>
        .ok (p.child x.1, x.2) ::
          if x.2.isDirectory then (below h depth (p.child x.1)).map Visit.outline else [] := by
  rw [below]
  cases h.list p with
  | error e => rfl
  | ok es =>
    simp only [Except.map, List.map_flatMap, List.flatMap_map, List.map_cons, Entry.outline,
      Entry.shape_isDirectory]
    congr 1
    funext x
    congr 1
    split <;> rfl

theorem below_outline (hs : h.SameOutline g) (depth : Nat) (p : Path) :
    (below h depth p).map Visit.outline = (below g depth p).map Visit.outline := by
  induction depth generalizing p with
  | zero => rfl
  | succ depth ih =>
    rw [below_outline_succ, below_outline_succ, hs.list p]
    simp only [ih]

theorem walk_outline_eq (h : Host) (depth : Nat) (root : Path) :
    (walk h depth root).map Visit.outline =
      match (h.statLink root).map Entry.shape with
      | .error e => [.error ⟨root, e⟩]
      | .ok e =>
        if e.isLink then
          match (h.stat root).map Entry.shape with
          | .error e => [.error ⟨root, e⟩]
          | .ok target => .ok (root, e) ::
            if target.isDirectory then (below h depth root).map Visit.outline else []
        else .ok (root, e) ::
          if e.isDirectory then (below h depth root).map Visit.outline else [] := by
  unfold walk
  cases h.statLink root with
  | error cause => rfl
  | ok e =>
    simp only [Except.map, Entry.shape_isLink, Entry.shape_isDirectory]
    split
    · cases h.stat root with
      | error cause => rfl
      | ok target =>
        simp only [Entry.shape_isDirectory, List.map_cons]
        split <;> rfl
    · split <;> rfl

theorem walk_outline (hs : h.SameOutline g) (depth : Nat) (root : Path) :
    (walk h depth root).map Visit.outline = (walk g depth root).map Visit.outline := by
  rw [walk_outline_eq, walk_outline_eq, hs.statLink root, hs.stat root, below_outline hs]

end Search

namespace Glob

theorem entryTask_outline (h : Host) (p : Path) (components : List Component) (x : Name × Entry) :
    entryTask h p components (Entry.outline x) = entryTask h p components x := by
  obtain ⟨n, e⟩ := x
  cases e <;> rfl

theorem entryTask_congr (hs : h.SameOutline g) (p : Path) (components : List Component)
    (x : Name × Entry) : entryTask h p components x = entryTask g p components x := by
  simp only [entryTask, hs.isDirectory]

theorem entryTasks_congr (hs : h.SameOutline g) (p : Path) (components : List Component) :
    (h.list p).map (List.map (entryTask h p components)) =
      (g.list p).map (List.map (entryTask g p components)) := by
  rw [funext (entryTask_congr hs p components)]
  rcases map_eq_map_cases (hs.list p) with ⟨e, hh, hg⟩ | ⟨es, fs, hh, hg, hef⟩
  · rw [hh, hg]
  · rw [hh, hg]
    exact congrArg Except.ok (map_eq_of_map_eq (entryTask_outline g p components) hef)

theorem descend_congr (hs : h.SameOutline g) (components : List Component) (p : Path)
    (directory : Bool) : descend h components p directory = descend g components p directory := by
  induction components generalizing p directory with
  | nil => rfl
  | cons c rest ih =>
    simp only [descend, hs.isDirectory, ih, Host.isOk_eq (hs.stat _),
      Host.isOk_eq (hs.statLink _)]
    cases literal? c with
    | some s => rfl
    | none =>
      cases directory with
      | false => rfl
      | true =>
        rcases map_eq_map_cases (entryTasks_congr hs p (c :: rest)) with
          ⟨e, hh, hg⟩ | ⟨es, fs, hh, hg, htasks⟩
        · simp only [hh, hg]
        · simp only [hh, hg, htasks]

theorem matchName_congr (hs : h.SameOutline g) (onlyDirectories : Bool) (p : Path)
    (directory : Bool) (components : List Component) :
    matchName h onlyDirectories p directory components =
      matchName g onlyDirectories p directory components := by
  cases components with
  | nil => rfl
  | cons c rest => simp only [matchName, descend_congr hs]

theorem perform_congr (hs : h.SameOutline g) (onlyDirectories : Bool) (t : Task) :
    perform h onlyDirectories t = perform g onlyDirectories t := by
  cases t with
  | failed e => rfl
  | found p directory => rfl
  | matching p directory components =>
    simp only [perform, matchName_congr hs, descend_congr hs]

theorem results_congr (hs : h.SameOutline g) (onlyDirectories : Bool) (depth : Nat) :
    results h onlyDirectories depth = results g onlyDirectories depth := by
  induction depth with
  | zero => rfl
  | succ depth ih =>
    funext limit t
    simp only [results, perform_congr hs, ih]

theorem expand_congr (hs : h.SameOutline g) (pattern : Pattern) (limit : Nat) :
    pattern.expand h limit = pattern.expand g limit := by
  simp only [Pattern.expand, results_congr hs, descend_congr hs, hs.isDirectory]

end Glob
end InstallLocator
