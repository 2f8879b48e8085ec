import InstallLocator.Proofs.Descent

/-!
# The order of a walk

Each entry that a walk meets below a directory stands there under its names
from that directory. A walk meets exactly the entries of the directories that a
short enough descent ends in, in strictly increasing order of those names.
-/

set_option autoImplicit false

namespace InstallLocator

def Path.descendant (p : Path) (names : List Name) : Path :=
  names.foldl child p

@[simp] theorem Path.descendant_nil (p : Path) : p.descendant [] = p :=
  rfl

@[simp] theorem Path.descendant_cons (p : Path) (n : Name) (names : List Name) :
    p.descendant (n :: names) = (p.child n).descendant names :=
  rfl

@[simp] theorem Path.descendant_concat (p : Path) (names : List Name) (n : Name) :
    p.descendant (names ++ [n]) = (p.descendant names).child n := by
  simp [descendant]

namespace Search

def visitsOf (deeper : List (List Name × Entry)) (x : Name × Entry) :
    List (List Name × Entry) :=
  ([x.1], x.2) :: if x.2.isDirectory then deeper.map fun v => (x.1 :: v.1, v.2) else []

/-- The entries that a walk meets below a directory, each with its names from
there. -/
def visits (h : Host) : Nat → Path → List (List Name × Entry)
  | 0, _ => []
  | depth + 1, p =>
    match h.list p with
    | .error _ => []
    | .ok entries => entries.flatMap fun x => visitsOf (visits h depth (p.child x.1)) x

variable {h : Host} {p q root : Path} {n d : Name} {e : Entry} {depth : Nat}
  {names dirs : List Name}

theorem visits_of_list {es : List (Name × Entry)} (hl : h.list p = .ok es) :
    visits h (depth + 1) p = es.flatMap fun x => visitsOf (visits h depth (p.child x.1)) x := by
  rw [visits, hl]

theorem visits_of_error {cause : IoError} (hl : h.list p = .error cause) :
    visits h depth p = [] := by
  cases depth with
  | zero => rfl
  | succ depth => rw [visits, hl]

theorem flatMap_below {α : Type} (f : Visit → List α) (hf : ∀ e, f (.error e) = [])
    (h : Host) (depth : Nat) (p : Path) :
    (below h depth p).flatMap f =
      (visits h depth p).flatMap fun v => f (.ok (p.descendant v.1, v.2)) := by
  induction depth generalizing p with
  | zero => rfl
  | succ depth ih =>
    cases hl : h.list p with
    | error cause => simp [below, visits_of_error hl, hl, hf]
    | ok es =>
      rw [visits_of_list hl, below, hl]
      simp only [List.flatMap_assoc]
      congr 1
      funext x
      rw [visitsOf, List.flatMap_cons, List.flatMap_cons]
      congr 1
      by_cases hd : x.2.isDirectory = true
      · rw [if_pos hd, if_pos hd, ih, List.flatMap_map]
        rfl
      · rw [if_neg hd, if_neg hd]
        rfl

theorem mem_visitsOf {deeper : List (List Name × Entry)} {x : Name × Entry} :
    (names, e) ∈ visitsOf deeper x ↔ (names = [x.1] ∧ e = x.2) ∨
      x.2.isDirectory = true ∧ ∃ ns, names = x.1 :: ns ∧ (ns, e) ∈ deeper := by
  rw [visitsOf, List.mem_cons, Prod.mk.injEq]
  by_cases hd : x.2.isDirectory = true
  · rw [if_pos hd, List.mem_map]
    constructor
    · rintro (he | ⟨v, hv, hx⟩)
      · exact Or.inl he
      · cases hx
        exact Or.inr ⟨hd, v.1, rfl, hv⟩
    · rintro (he | ⟨-, ns, rfl, hv⟩)
      · exact Or.inl he
      · exact Or.inr ⟨(ns, e), hv, rfl⟩
  · simp [hd]

theorem exists_cons_of_mem_visitsOf {deeper : List (List Name × Entry)} {x : Name × Entry}
    (hv : (names, e) ∈ visitsOf deeper x) : ∃ ns, names = x.1 :: ns := by
  rcases mem_visitsOf.1 hv with ⟨rfl, -⟩ | ⟨-, ns, rfl, -⟩
  · exact ⟨[], rfl⟩
  · exact ⟨ns, rfl⟩

theorem ne_nil_of_mem_visits (hv : (names, e) ∈ visits h depth p) : names ≠ [] := by
  cases depth with
  | zero => cases hv
  | succ depth =>
    rw [visits] at hv
    split at hv
    · cases hv
    · obtain ⟨x, -, hx⟩ := List.mem_flatMap.1 hv
      obtain ⟨ns, rfl⟩ := exists_cons_of_mem_visitsOf hx
      simp

theorem visitsOf_sorted {deeper : List (List Name × Entry)} (x : Name × Entry)
    (hne : ∀ v ∈ deeper, v.1 ≠ [])
    (hs : deeper.Pairwise fun a b => List.Lex Name.Before a.1 b.1) :
    (visitsOf deeper x).Pairwise fun a b => List.Lex Name.Before a.1 b.1 := by
  unfold visitsOf
  split
  · refine List.pairwise_cons.2 ⟨fun v hv => ?_, List.pairwise_map.2 (hs.imp List.Lex.cons)⟩
    obtain ⟨w, hw, rfl⟩ := List.mem_map.1 hv
    obtain ⟨a, as, ha⟩ := List.exists_cons_of_ne_nil (hne w hw)
    rw [ha]
    exact List.Lex.cons List.Lex.nil
  · exact List.pairwise_singleton _ _

/-- A walk meets the entries in strictly increasing order of their names. -/
theorem visits_sorted (h : Host) (depth : Nat) (p : Path) :
    (visits h depth p).Pairwise fun a b => List.Lex Name.Before a.1 b.1 := by
  induction depth generalizing p with
  | zero => exact List.Pairwise.nil
  | succ depth ih =>
    cases hl : h.list p with
    | error cause =>
      rw [visits_of_error hl]
      exact List.Pairwise.nil
    | ok es =>
      obtain ⟨l, -, -, rfl⟩ := Host.list_eq_ok_iff.1 hl
      have hsorted := List.pairwise_map.1 (h.tree.listing_sorted l)
      rw [visits_of_list hl]
      refine List.pairwise_flatMap.2 ⟨fun x _ => ?_, hsorted.imp fun hxy a ha b hb => ?_⟩
      · exact visitsOf_sorted x (fun v hv => ne_nil_of_mem_visits hv) (ih (p.child x.1))
      -- Below two entries of one directory the first names decide.
      · obtain ⟨as, has⟩ := exists_cons_of_mem_visitsOf ha
        obtain ⟨bs, hbs⟩ := exists_cons_of_mem_visitsOf hb
        rw [has, hbs]
        exact List.Lex.rel hxy

theorem Descends.eq_descendant (hd : Descends h p names q) : q = p.descendant names := by
  induction hd with
  | root => rfl
  | child _ _ _ ih => rw [Path.descendant_concat, ← ih]

theorem Descends.ne_nil (hd : Descends h p names q) (hp : p.bytes ≠ []) : q.bytes ≠ [] := by
  induction hd with
  | root => exact hp
  | child _ valid _ ih => exact Path.join_ne_nil ih (FileTree.isValid_iff.1 valid).2.2.2.1

theorem Descends.append {more : List Name} {r : Path} (hd : Descends h p names q)
    (hr : Descends h q more r) : Descends h p (names ++ more) r := by
  induction hr with
  | root => simpa using hd
  | child _ valid directory ih =>
    rw [← List.append_assoc]
    exact .child ih valid directory

theorem Descends.of_cons (hd : Descends h p (d :: names) q) :
    d.isValid = true ∧ h.statLink (p.child d) = .ok .directory ∧
      Descends h (p.child d) names q := by
  generalize hns : d :: names = ns at hd
  induction hd generalizing names with
  | root => cases hns
  | @child before q n above valid directory ih =>
    cases before with
    | nil =>
      cases hns
      cases above.eq_descendant
      exact ⟨valid, directory, .root⟩
    | cons b before =>
      cases hns
      obtain ⟨hv, hdir, hbelow⟩ := ih rfl
      exact ⟨hv, hdir, .child hbelow valid directory⟩

theorem Descends.stat_root (hd : Descends h p names q) (hp : p.bytes ≠ [])
    (hq : h.stat q = .ok .directory) : h.stat p = .ok .directory := by
  induction hd with
  | root => exact hq
  | child above valid _ ih =>
    have hslash := (FileTree.isValid_iff.1 valid).2.2.2.1
    exact ih (Host.stat_of_join (above.ne_nil hp) hslash hq)

/-- A directory reached from a root by these names, no link among them, holds
this entry under this name. -/
structure Holds (h : Host) (root : Path) (dirs : List Name) (n : Name) (e : Entry) : Prop where
  reached : Descends h root dirs (root.descendant dirs)
  listed : ∃ es, h.list (root.descendant dirs) = .ok es ∧ (n, e) ∈ es

theorem holds_nil : Holds h p [] n e ↔ ∃ es, h.list p = .ok es ∧ (n, e) ∈ es :=
  ⟨Holds.listed, fun hl => ⟨.root, hl⟩⟩

theorem Holds.stat_root (hh : Holds h p dirs n e) (hp : p.bytes ≠ []) :
    h.stat p = .ok .directory := by
  obtain ⟨es, hl, -⟩ := hh.listed
  exact hh.reached.stat_root hp (Host.stat_of_list hl)

theorem listed_of_statLink (hp : p.bytes ≠ []) (hv : n.isValid = true)
    (hs : h.statLink (p.child n) = .ok e) : ∃ es, h.list p = .ok es ∧ (n, e) ∈ es := by
  obtain ⟨hne, -, -, hslash, -, -⟩ := FileTree.isValid_iff.1 hv
  obtain ⟨x, hx, -⟩ := Host.statLink_eq_ok_iff.1 hs
  obtain ⟨m, hm, hdir⟩ := FileTree.resolve_of_resolve_join hx hp hslash hne
  exact ⟨_, Host.list_of_directory hm hdir,
    FileTree.mem_listing.2 (Host.find?_of_statLink hm hv hs)⟩

theorem statLink_child_iff (hp : p.bytes ≠ []) (hd : h.stat (p.child d) = .ok .directory) :
    d.isValid = true ∧ h.statLink (p.child d) = .ok .directory ↔
      ∃ es, h.list p = .ok es ∧ (d, .directory) ∈ es := by
  constructor
  · rintro ⟨hv, hs⟩
    exact listed_of_statLink hp hv hs
  · rintro ⟨es, hl, hmem⟩
    obtain ⟨m, hm, -, rfl⟩ := Host.list_eq_ok_iff.1 hl
    have hfind := FileTree.mem_listing.1 hmem
    obtain ⟨x, hx, -⟩ := Host.stat_directory_iff.1 hd
    have hopen := (FileTree.resolve_eq_ok_iff.1 hx).1
    exact ⟨FileTree.isValid_of_find? hfind,
      Host.statLink_eq_ok_iff.2 ⟨_, Host.resolve_child hm hfind rfl hopen, hfind⟩⟩

theorem child_ne_nil_of_listed (hp : p.bytes ≠ []) {es : List (Name × Entry)}
    (hl : h.list p = .ok es) (hmem : (n, e) ∈ es) : (p.child n).bytes ≠ [] := by
  obtain ⟨m, -, -, rfl⟩ := Host.list_eq_ok_iff.1 hl
  have hv := FileTree.isValid_of_find? (FileTree.mem_listing.1 hmem)
  exact Path.join_ne_nil hp (FileTree.isValid_iff.1 hv).2.2.2.1

theorem holds_cons (hp : p.bytes ≠ []) : Holds h p (d :: dirs) n e ↔
    (∃ es, h.list p = .ok es ∧ (d, .directory) ∈ es) ∧ Holds h (p.child d) dirs n e := by
  constructor
  · intro hh
    obtain ⟨hv, hs, hbelow⟩ := hh.reached.of_cons
    have hrest : Holds h (p.child d) dirs n e := ⟨hbelow, hh.listed⟩
    have hc := Path.join_ne_nil hp (FileTree.isValid_iff.1 hv).2.2.2.1
    exact ⟨(statLink_child_iff hp (hrest.stat_root hc)).1 ⟨hv, hs⟩, hrest⟩
  · rintro ⟨⟨es, hl, hmem⟩, hrest⟩
    have hc := child_ne_nil_of_listed hp hl hmem
    obtain ⟨hv, hs⟩ := (statLink_child_iff hp (hrest.stat_root hc)).2 ⟨_, hl, hmem⟩
    exact ⟨Descends.append (.child .root hv hs) hrest.reached, hrest.listed⟩

theorem list_of_mem_visits (hv : (names, e) ∈ visits h depth p) : ∃ es, h.list p = .ok es := by
  cases hl : h.list p with
  | ok es => exact ⟨es, rfl⟩
  | error cause =>
    rw [visits_of_error hl] at hv
    cases hv

theorem mem_visits_succ : (d :: names, e) ∈ visits h (depth + 1) p ↔
    (names = [] ∧ ∃ es, h.list p = .ok es ∧ (d, e) ∈ es) ∨
      (∃ es, h.list p = .ok es ∧ (d, .directory) ∈ es) ∧
        (names, e) ∈ visits h depth (p.child d) := by
  cases hl : h.list p with
  | error cause => simp [visits_of_error hl]
  | ok es =>
    rw [visits_of_list hl, List.mem_flatMap]
    constructor
    · rintro ⟨⟨a, f⟩, hx, hv⟩
      rcases mem_visitsOf.1 hv with ⟨hn, rfl⟩ | ⟨hf, ns, hn, hbelow⟩
      · cases hn
        exact Or.inl ⟨rfl, es, rfl, hx⟩
      · cases hn
        obtain ⟨ds, hds⟩ := list_of_mem_visits hbelow
        have hlink := Entry.isLink_of_isDirectory hf
        obtain rfl := Host.eq_of_stat_child hl hx hlink (Host.stat_of_list hds)
        exact Or.inr ⟨⟨es, rfl, hx⟩, hbelow⟩
    · rintro (⟨rfl, _, ⟨⟩, hx⟩ | ⟨⟨_, ⟨⟩, hx⟩, hbelow⟩)
      · exact ⟨(d, e), hx, mem_visitsOf.2 (Or.inl ⟨rfl, rfl⟩)⟩
      · exact ⟨(d, .directory), hx, mem_visitsOf.2 (Or.inr ⟨rfl, names, rfl, hbelow⟩)⟩

/-- A walk meets exactly the entries that lie less deep than it goes. -/
theorem mem_visits_iff (hp : p.bytes ≠ []) :
    (dirs ++ [n], e) ∈ visits h depth p ↔ dirs.length < depth ∧ Holds h p dirs n e := by
  induction dirs generalizing depth p with
  | nil =>
    cases depth with
    | zero => simp [visits]
    | succ depth =>
      have hempty : ([], e) ∉ visits h depth (p.child n) := fun hv =>
        ne_nil_of_mem_visits hv rfl
      rw [List.nil_append, mem_visits_succ, holds_nil]
      simp [hempty]
  | cons d dirs ih =>
    cases depth with
    | zero => simp [visits]
    | succ depth =>
      rw [List.cons_append, mem_visits_succ, holds_cons hp]
      simp only [List.append_eq_nil_iff, List.cons_ne_self, and_false, false_and, false_or,
        List.length_cons, Nat.add_lt_add_iff_right]
      rw [and_left_comm]
      refine and_congr_right ?_
      -- From the first directory there is one name less, and one level less to go.
      rintro ⟨es, hl, hmem⟩
      exact ih (child_ne_nil_of_listed hp hl hmem)

end Search
end InstallLocator
