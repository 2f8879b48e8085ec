import InstallLocator.Search.Walk
import InstallLocator.Proofs.Listing

/-!
# Descents

A descent goes from a root through real directories, one name at a time. A walk
visits every entry of every directory that a descent shorter than its depth
ends in, whatever else lies on the way.
-/

set_option autoImplicit false

namespace InstallLocator

namespace FileTree

variable {t : FileTree} {k : Nat} {l m x : Location}

/-- A walk that keeps a last link ends where one that follows it does, or at
that link. -/
def KeptOf (t : FileTree) (m : Location) (kept : Except IoError Location) : Prop :=
  kept = .ok m ∨ ∃ x target, kept = .ok x ∧ t.find? x = some (.link target)

theorem follow_kept_name (t : FileTree) (k : Nat) (l : Location) (n : Name) :
    t.follow .kept k l [n] = t.follow .followed k l [n] ∨
      ∃ x target, t.follow .kept k l [n] = .ok x ∧ t.find? x = some (.link target) := by
  simp only [follow_eq_walk, walk]
  split
  · exact Or.inl rfl
  split
  · exact Or.inl rfl
  split
  · exact Or.inl rfl
  split
  · exact Or.inl rfl
  split
  · exact Or.inl rfl
  cases hf : t.find? (n :: l) with
  | none => exact Or.inl rfl
  | some e =>
    cases e with
    | link target => exact Or.inr ⟨n :: l, target, rfl, hf⟩
    | directory | closed cause | file content | sealed size cause | device => exact Or.inl rfl

theorem follow_kept_cases (t : FileTree) (k : Nat) (l : Location) (a : List Name) :
    t.follow .kept k l a = t.follow .followed k l a ∨
      ∃ x target, t.follow .kept k l a = .ok x ∧ t.find? x = some (.link target) := by
  rcases List.eq_nil_or_concat a with rfl | ⟨before, n, rfl⟩
  · exact Or.inl (by rw [follow_nil, follow_nil])
  cases hb : t.follow .followed k l before with
  | error e =>
    left
    rw [List.concat_eq_append, follow_append_error hb (by simp), follow_append_error hb (by simp)]
  | ok m =>
    obtain ⟨j, hj⟩ := follow_append hb
    rw [List.concat_eq_append, hj .kept _ (by simp), hj .followed _ (by simp)]
    exact t.follow_kept_name j m n

theorem follow_kept {a : List Name} (h : t.follow .followed k l a = .ok m) :
    t.KeptOf m (t.follow .kept k l a) := by
  rcases t.follow_kept_cases k l a with hk | hk
  · exact Or.inl (hk.trans h)
  · exact Or.inr hk

theorem follow_of_kept {a : List Name} {e : Entry} (h : t.follow .kept k l a = .ok x)
    (he : t.find? x = some e) (hl : e.isLink = false) : t.follow .followed k l a = .ok x := by
  rcases t.follow_kept_cases k l a with hk | ⟨y, target, hk, hy⟩
  · exact hk.symm.trans h
  · obtain rfl : x = y := Except.ok.inj (h.symm.trans hk)
    cases Option.some.inj (he.symm.trans hy)
    cases hl

end FileTree

theorem Host.statLink_of_stat {h : Host} {p : Path} {e : Entry} (hs : h.stat p = .ok e) :
    h.statLink p = .ok e ∨ ∃ target, h.statLink p = .ok (.link target) := by
  obtain ⟨l, hl, he⟩ := stat_eq_ok_iff.1 hs
  obtain ⟨ho, hf⟩ := FileTree.resolve_eq_ok_iff.1 hl
  rcases FileTree.follow_kept hf with hk | ⟨x, target, hk, ht⟩
  · exact Or.inl (statLink_eq_ok_iff.2 ⟨l, FileTree.resolve_eq_ok_iff.2 ⟨ho, hk⟩, he⟩)
  · exact Or.inr ⟨target, statLink_eq_ok_iff.2 ⟨x, FileTree.resolve_eq_ok_iff.2 ⟨ho, hk⟩, ht⟩⟩

theorem Host.stat_of_statLink {h : Host} {p : Path} {e : Entry} (hs : h.statLink p = .ok e)
    (hl : e.isLink = false) : h.stat p = .ok e := by
  obtain ⟨x, hx, he⟩ := statLink_eq_ok_iff.1 hs
  obtain ⟨ho, hf⟩ := FileTree.resolve_eq_ok_iff.1 hx
  exact stat_eq_ok_iff.2
    ⟨x, FileTree.resolve_eq_ok_iff.2 ⟨ho, FileTree.follow_of_kept hf he hl⟩, he⟩

namespace Search

/-- The path is reached from the root by these names, each that of an open
directory and not of a link to one. -/
inductive Descends (h : Host) (root : Path) : List Name → Path → Prop
  | root : Descends h root [] root
  | child {names : List Name} {p : Path} {n : Name} (above : Descends h root names p)
      (valid : n.isValid = true) (directory : h.statLink (p.child n) = .ok .directory) :
      Descends h root (names ++ [n]) (p.child n)

variable {h : Host} {root p : Path} {names : List Name} {n : Name} {e : Entry}

theorem Descends.stat (hp : Descends h root names p) (hr : h.stat root = .ok .directory) :
    h.stat p = .ok .directory := by
  induction hp with
  | root => exact hr
  | child _ valid directory ih =>
    obtain ⟨l, hl, -⟩ := Host.stat_directory_iff.1 ih
    have he := Host.find?_of_statLink hl valid directory
    obtain ⟨x, hx, -⟩ := Host.statLink_eq_ok_iff.1 directory
    have ho := (FileTree.resolve_eq_ok_iff.1 hx).1
    exact Host.stat_eq_ok_iff.2 ⟨_, Host.resolve_child hl he rfl ho, he⟩

theorem Descends.isAbsolute (hp : Descends h root names p) (hr : root.isAbsolute = true) :
    p.isAbsolute = true := by
  induction hp with
  | root => exact hr
  | child _ valid _ ih =>
    rw [Path.child, Path.isAbsolute_join (Path.ne_nil_of_isAbsolute ih)
      (FileTree.isValid_iff.1 valid).2.2.2.1, ih]

/-- A walk of any depth meets the root first, unless it fails there, and then goes
below it or ends. -/
theorem walk_cases (h : Host) (root : Path) :
    (∃ cause, ∀ depth, walk h depth root = [.error ⟨root, cause⟩]) ∨
      ∃ e, (∀ depth, walk h depth root = [.ok (root, e)]) ∨
        ∀ depth, walk h depth root = .ok (root, e) :: below h depth root := by
  unfold walk
  cases h.statLink root with
  | error cause => exact Or.inl ⟨cause, fun _ => rfl⟩
  | ok e =>
    by_cases hl : e.isLink = true
    · cases h.stat root with
      | error cause => exact Or.inl ⟨cause, fun _ => if_pos hl⟩
      | ok target =>
        refine Or.inr ⟨e, ?_⟩
        by_cases hd : target.isDirectory = true
        · exact Or.inr fun _ => by simp only [hl, hd, if_true]
        · exact Or.inl fun _ => by simp only [hl, hd, if_true, Bool.false_eq_true, if_false]
    · refine Or.inr ⟨e, ?_⟩
      by_cases hd : e.isDirectory = true
      · exact Or.inr fun _ => by simp only [hl, hd, if_true, Bool.false_eq_true, if_false]
      · exact Or.inl fun _ => by simp only [hl, hd, Bool.false_eq_true, if_false]

theorem walk_of_directory (hr : h.stat root = .ok e) (hd : e.isDirectory = true) (depth : Nat) :
    ∃ f : Entry, f.isFile = false ∧ walk h depth root = .ok (root, f) :: below h depth root := by
  unfold walk
  obtain hs | ⟨target, hs⟩ := Host.statLink_of_stat hr
  · refine ⟨e, Entry.isFile_of_isDirectory hd, ?_⟩
    simp only [hs, Host.isLink_of_stat hr, Bool.false_eq_true, if_false, hd, if_true]
  · refine ⟨.link target, rfl, ?_⟩
    simp only [hs, Entry.isLink, if_true, hr, hd]

theorem walk_of_missing {cause : IoError} (hr : h.stat root = .error cause) (depth : Nat) :
    ∃ e, walk h depth root = [.error e] := by
  unfold walk
  cases hs : h.statLink root with
  | error cause => exact ⟨_, rfl⟩
  | ok e =>
    cases hl : e.isLink with
    | true =>
      simp only [hl, if_true, hr]
      exact ⟨_, rfl⟩
    | false => cases (Host.stat_of_statLink hs hl).symm.trans hr

end Search
end InstallLocator
