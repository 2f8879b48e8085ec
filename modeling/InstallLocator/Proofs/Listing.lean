import InstallLocator.Host
import InstallLocator.Proofs.Resolution

/-!
# What a directory holds

A directory is listed with exactly its entries, each once, in strictly
increasing byte order of their names. An entry that is no link is found under
the path of the directory and its name.
-/

set_option autoImplicit false

namespace InstallLocator

theorem Name.le_trans (a b c : Name) (hab : a.le b = true) (hbc : b.le c = true) :
    a.le c = true := by
  induction a generalizing b c with
  | nil => rfl
  | cons x as ih =>
    cases b with
    | nil => cases hab
    | cons y bs =>
      cases c with
      | nil => cases hbc
      | cons z cs =>
        simp only [Name.le, Bool.or_eq_true, decide_eq_true_eq, Bool.and_eq_true,
          beq_iff_eq] at hab hbc ⊢
        rcases hab with hxy | ⟨rfl, has⟩
        · rcases hbc with hyz | ⟨rfl, -⟩
          · exact Or.inl (UInt8.lt_trans hxy hyz)
          · exact Or.inl hxy
        · rcases hbc with hyz | ⟨rfl, hbs⟩
          · exact Or.inl hyz
          · exact Or.inr ⟨rfl, ih bs cs has hbs⟩

theorem Name.le_total (a b : Name) : (a.le b || b.le a) = true := by
  induction a generalizing b with
  | nil => rfl
  | cons x as ih =>
    cases b with
    | nil => rfl
    | cons y bs =>
      have hab := ih bs
      simp only [Name.le, Bool.or_eq_true, decide_eq_true_eq, Bool.and_eq_true,
        beq_iff_eq] at hab ⊢
      rcases UInt8.lt_or_le x y with hxy | hyx
      · exact Or.inl (Or.inl hxy)
      · rcases UInt8.le_iff_lt_or_eq.1 hyx with hlt | rfl
        · exact Or.inr (Or.inl hlt)
        · exact hab.imp (fun h => Or.inr ⟨rfl, h⟩) fun h => Or.inr ⟨rfl, h⟩

theorem Name.le_antisymm {a b : Name} (hab : a.le b = true) (hba : b.le a = true) : a = b := by
  induction a generalizing b with
  | nil =>
    cases b with
    | nil => rfl
    | cons y bs => cases hba
  | cons x as ih =>
    cases b with
    | nil => cases hab
    | cons y bs =>
      simp only [Name.le, Bool.or_eq_true, decide_eq_true_eq, Bool.and_eq_true,
        beq_iff_eq] at hab hba
      rcases hab with hxy | ⟨rfl, has⟩
      · rcases hba with hyx | ⟨rfl, -⟩
        · exact absurd hyx (UInt8.lt_asymm hxy)
        · exact absurd hxy (UInt8.lt_irrefl _)
      · rcases hba with hxx | ⟨-, hbs⟩
        · exact absurd hxx (UInt8.lt_irrefl _)
        · rw [ih has hbs]

namespace Entry

variable {e : Entry}

theorem isDirectory_iff : e.isDirectory = true ↔ e = directory ∨ ∃ cause, e = closed cause := by
  cases e <;> simp [isDirectory]

theorem isLink_of_isDirectory (h : e.isDirectory = true) : e.isLink = false := by
  obtain rfl | ⟨cause, rfl⟩ := isDirectory_iff.1 h <;> rfl

theorem isFile_of_isDirectory (h : e.isDirectory = true) : e.isFile = false := by
  obtain rfl | ⟨cause, rfl⟩ := isDirectory_iff.1 h <;> rfl

theorem isLink_of_isFile (h : e.isFile = true) : e.isLink = false := by
  cases e <;> first | rfl | cases h

end Entry

def Name.Before (a b : Name) : Prop := a.le b = true ∧ a ≠ b

namespace FileTree

/-- The entries of a directory in byte order of their names. -/
def listing (t : FileTree) (l : Location) : List (Name × Entry) :=
  ((t.namesIn l).mergeSort Name.le).filterMap fun n => (t.find? (n :: l)).map (n, ·)

theorem mem_listing {t : FileTree} {l : Location} {n : Name} {e : Entry} :
    (n, e) ∈ t.listing l ↔ t.find? (n :: l) = some e := by
  simp only [listing, List.mem_filterMap, List.mem_mergeSort, mem_namesIn]
  constructor
  · rintro ⟨a, -, h⟩
    obtain ⟨f, hf, he⟩ := Option.map_eq_some_iff.1 h
    cases he
    exact hf
  · intro h
    exact ⟨n, ⟨e, h⟩, by rw [h]; rfl⟩

theorem listing_names (t : FileTree) (l : Location) :
    (t.listing l).map Prod.fst = (t.namesIn l).mergeSort Name.le := by
  have hall : ∀ n ∈ (t.namesIn l).mergeSort Name.le, ∃ e, t.find? (n :: l) = some e :=
    fun n hn => mem_namesIn.1 (List.mem_mergeSort.1 hn)
  rw [listing, List.map_filterMap]
  generalize (t.namesIn l).mergeSort Name.le = ns at hall
  induction ns with
  | nil => rfl
  | cons n ns ih =>
    obtain ⟨e, he⟩ := hall n (by simp)
    rw [List.filterMap_cons, he, ih fun a ha => hall a (by simp [ha])]
    rfl

theorem namesIn_nodup (t : FileTree) (l : Location) : (t.namesIn l).Nodup := by
  have hp := List.pairwise_map.1 t.nodup
  refine List.pairwise_filterMap.2 (hp.imp ?_)
  rintro ⟨a, e⟩ ⟨b, f⟩ hab n hn m hm rfl
  cases a with
  | nil => cases hn
  | cons x xs =>
    cases b with
    | nil => cases hm
    | cons y ys =>
      simp only [Option.ite_none_right_eq_some, Option.some.injEq] at hn hm
      exact hab (by rw [hn.1, hn.2, hm.1, hm.2])

/-- Each name stands once, after all those before it in byte order. -/
theorem listing_sorted (t : FileTree) (l : Location) :
    ((t.listing l).map Prod.fst).Pairwise Name.Before := by
  rw [listing_names]
  have hs := List.pairwise_mergeSort Name.le_trans Name.le_total (t.namesIn l)
  have hn : ((t.namesIn l).mergeSort Name.le).Nodup :=
    (List.mergeSort_perm _ _).nodup_iff.2 (t.namesIn_nodup l)
  exact hs.imp₂ (fun a b h1 h2 => ⟨h1, h2⟩) hn

theorem listing_nodup (t : FileTree) (l : Location) :
    ((t.listing l).map Prod.fst).Nodup :=
  (t.listing_sorted l).imp And.right

theorem isDirectoryAt_iff {t : FileTree} {l : Location} :
    t.isDirectoryAt l = true ↔ t.find? l = some .directory := by
  simp [isDirectoryAt]

theorem isValid_of_find? {t : FileTree} {l : Location} {n : Name} {e : Entry}
    (h : t.find? (n :: l) = some e) : n.isValid = true :=
  t.valid _ _ _ (find?_eq_some_iff.1 h)

theorem isDirectoryAt_of_find? {t : FileTree} {l : Location} {n : Name} {e : Entry}
    (h : t.find? (n :: l) = some e) : t.isDirectoryAt l = true :=
  isDirectoryAt_iff.2 (find?_eq_some_iff.2 (t.parent_mem _ _ _ (find?_eq_some_iff.1 h)))

theorem isDirectoryAt_tail {t : FileTree} {l : Location} (h : t.isDirectoryAt l = true) :
    t.isDirectoryAt l.tail = true := by
  cases l with
  | nil => exact h
  | cons n l => exact isDirectoryAt_of_find? (isDirectoryAt_iff.1 h)

/-- Whatever stands there is no link. -/
def NoLinkAt (t : FileTree) (l : Location) : Prop := ∀ e, t.find? l = some e → e.isLink = false

section

variable {t : FileTree} {k : Nat} {l x : Location} {names : List Name}

theorem noLinkAt_of_holdsDirectory (h : t.holdsDirectory l = true) : t.NoLinkAt l := by
  intro e he
  obtain ⟨f, hf, hd⟩ := holdsDirectory_iff.1 h
  obtain rfl : f = e := Option.some.inj (hf.symm.trans he)
  exact Entry.isLink_of_isDirectory hd

theorem noLinkAt_of_directory (h : t.isDirectoryAt l = true) : t.NoLinkAt l :=
  noLinkAt_of_holdsDirectory (holdsDirectory_of_isDirectoryAt h)

theorem noLinkAt_root (t : FileTree) : t.NoLinkAt [] :=
  noLinkAt_of_directory (isDirectoryAt_iff.2 t.find?_root)

theorem walk_noLinkAt
    (hlink : ∀ l names, t.NoLinkAt l → t.onLink .followed k l names = .ok x → t.NoLinkAt x)
    (hl : names = [] → t.NoLinkAt l)
    (h : t.walk .followed (t.onLink .followed k) l names = .ok x) : t.NoLinkAt x := by
  induction names generalizing l with
  | nil =>
    cases h
    exact hl rfl
  | cons n rest ih =>
    rw [walk] at h
    split at h
    · split at h
      · rename_i hd
        exact ih (fun _ => noLinkAt_of_holdsDirectory hd) h
      · cases h
    split at h
    · cases h
    rename_i hd
    have hd : t.isDirectoryAt l = true := by simpa using hd
    split at h
    · exact ih (fun _ => noLinkAt_of_directory hd) h
    split at h
    · exact ih (fun _ => noLinkAt_of_directory (isDirectoryAt_tail hd)) h
    split at h
    · cases h
    split at h
    · simp at h
    · -- The walk goes on from the root or from the directory of the link.
      rw [if_neg (by simp)] at h
      refine hlink _ _ ?_ h
      split
      · exact t.noLinkAt_root
      · exact noLinkAt_of_directory hd
    · rename_i e hnot he
      refine ih (fun _ f hf => ?_) h
      cases he.symm.trans hf
      cases e with
      | link target => exact absurd rfl (hnot target)
      | directory | closed cause | file content | sealed size cause | device => rfl

theorem follow_noLinkAt (hl : names = [] → t.NoLinkAt l)
    (h : t.follow .followed k l names = .ok x) : t.NoLinkAt x := by
  induction k generalizing l names with
  | zero =>
    have hlink : ∀ l names, t.NoLinkAt l → t.onLink .followed 0 l names = .ok x →
        t.NoLinkAt x := fun l names _ hx => by cases hx
    exact walk_noLinkAt hlink hl h
  | succ k ih =>
    have hlink : ∀ l names, t.NoLinkAt l → t.onLink .followed (k + 1) l names = .ok x →
        t.NoLinkAt x := fun l names hl' hx => ih (fun _ => hl') hx
    exact walk_noLinkAt hlink hl h

end

end FileTree

namespace Host

open FileTree

variable {h : Host} {p : Path} {l m : Location} {n : Name} {e : Entry}

theorem stat_eq_ok_iff : h.stat p = .ok e ↔
    ∃ l, h.tree.resolve h.here .followed p = .ok l ∧ h.tree.find? l = some e := by
  simp only [stat, entryAt, bind, Except.bind]
  cases h.tree.resolve h.here .followed p with
  | error f => simp
  | ok l => cases hl : h.tree.find? l <;> simp [hl]

theorem read_of_stat (hs : h.stat p = .ok e) : h.read p = e.read := by
  rw [read, hs]
  rfl

theorem ne_nil_of_stat (hs : h.stat p = .ok e) : p.bytes ≠ [] := by
  obtain ⟨l, hl, -⟩ := stat_eq_ok_iff.1 hs
  exact (resolve_eq_ok_iff.1 hl).1.ne_nil

theorem isLink_of_stat (hs : h.stat p = .ok e) : e.isLink = false := by
  obtain ⟨x, hx, he⟩ := stat_eq_ok_iff.1 hs
  obtain ⟨ho, hf⟩ := resolve_eq_ok_iff.1 hx
  refine follow_noLinkAt (fun hnil => ?_) hf e he
  rw [Path.start, if_pos (Path.isAbsolute_of_steps_eq_nil ho.ne_nil hnil)]
  exact noLinkAt_root _

theorem statLink_eq_ok_iff : h.statLink p = .ok e ↔
    ∃ l, h.tree.resolve h.here .kept p = .ok l ∧ h.tree.find? l = some e := by
  simp only [statLink, entryAt, bind, Except.bind]
  cases h.tree.resolve h.here .kept p with
  | error f => simp
  | ok l => cases hl : h.tree.find? l <;> simp [hl]

theorem stat_directory_iff : h.stat p = .ok .directory ↔
    ∃ l, h.tree.resolve h.here .followed p = .ok l ∧ h.tree.isDirectoryAt l = true := by
  simp only [stat_eq_ok_iff, isDirectoryAt_iff]

theorem isDirectory_iff : h.isDirectory p = true ↔
    ∃ e, h.stat p = .ok e ∧ e.isDirectory = true := by
  unfold isDirectory
  cases h.stat p <;> simp

theorem isDirectory_of_stat (hs : h.stat p = .ok .directory) : h.isDirectory p = true :=
  isDirectory_iff.2 ⟨_, hs, rfl⟩

theorem list_eq_ok_iff {es : List (Name × Entry)} : h.list p = .ok es ↔
    ∃ l, h.tree.resolve h.here .followed p = .ok l ∧ h.tree.isDirectoryAt l = true ∧
      h.tree.listing l = es := by
  simp only [list, bind, Except.bind]
  cases h.tree.resolve h.here .followed p with
  | error f => simp
  | ok l =>
    change (if h.tree.isDirectoryAt l then Except.ok (h.tree.listing l)
      else .error (h.tree.refusal l)) = .ok es ↔ _
    cases hd : h.tree.isDirectoryAt l <;> simp [hd]

theorem list_of_directory (hr : h.tree.resolve h.here .followed p = .ok l)
    (hd : h.tree.isDirectoryAt l = true) : h.list p = .ok (h.tree.listing l) :=
  list_eq_ok_iff.2 ⟨l, hr, hd, rfl⟩

theorem list_of_closed {cause : IoError} (hr : h.tree.resolve h.here .followed p = .ok l)
    (hl : h.tree.find? l = some (.closed cause)) : h.list p = .error cause := by
  simp only [list, hr, bind, Except.bind, isDirectoryAt, refusal_of_closed hl, hl]
  rfl

theorem stat_of_list {es : List (Name × Entry)} (hl : h.list p = .ok es) :
    h.stat p = .ok .directory := by
  obtain ⟨l, hr, hd, -⟩ := list_eq_ok_iff.1 hl
  exact stat_directory_iff.2 ⟨l, hr, hd⟩

theorem mem_list_iff {es : List (Name × Entry)} (hl : h.list p = .ok es) :
    n ∈ es.map Prod.fst ↔ ∃ l e, h.tree.resolve h.here .followed p = .ok l ∧
      h.tree.find? (n :: l) = some e := by
  obtain ⟨l, hr, -, rfl⟩ := list_eq_ok_iff.1 hl
  constructor
  · intro hn
    obtain ⟨⟨m, e⟩, hm, rfl⟩ := List.mem_map.1 hn
    exact ⟨l, e, hr, mem_listing.1 hm⟩
  · rintro ⟨m, e, hm, he⟩
    obtain rfl : m = l := Except.ok.inj (hm.symm.trans hr)
    exact List.mem_map_of_mem (mem_listing.2 he)

theorem isOk_iff {α : Type} {x : Except IoError α} : x.isOk = true ↔ ∃ a, x = .ok a := by
  cases x <;> simp [Except.isOk, Except.toBool]

theorem stat_of_join (hp : p.bytes ≠ []) (hn : Path.slash ∉ n)
    (hd : h.stat (p.join ⟨n⟩) = .ok .directory) : h.stat p = .ok .directory := by
  rw [stat_directory_iff] at hd ⊢
  obtain ⟨l, hl, hld⟩ := hd
  by_cases hne : n = []
  · subst hne
    have ho := (resolve_eq_ok_iff.1 hl).1.of_start hp (Path.isStart_join p hn)
    have hf := follow_names_of_resolve hl
    rw [start_join hp hn, Path.join_nil, Path.names_stem hp] at hf
    exact ⟨l, resolve_of_follow_names ho (holdsDirectory_of_isDirectoryAt hld) hf, hld⟩
  · exact resolve_of_resolve_join hl hp hn hne

theorem resolve_child {last : LastName} (hr : h.tree.resolve h.here .followed p = .ok m)
    (he : h.tree.find? (n :: m) = some e) (hl : e.isLink = false)
    (ho : (p.child n).Openable) : h.tree.resolve h.here last (p.child n) = .ok (n :: m) := by
  have hv := isValid_of_find? he
  obtain ⟨hne, -, -, hn, -, -⟩ := isValid_iff.1 hv
  obtain ⟨j, hj⟩ := resolve_join hr hn hne
  exact (hj last _).2 ⟨ho, follow_entry_of_not_link hv (isDirectoryAt_of_find? he) he hl⟩

theorem eq_of_stat_child {es : List (Name × Entry)} {f : Entry} (hl : h.list p = .ok es)
    (he : (n, e) ∈ es) (hlink : e.isLink = false) (hs : h.stat (p.child n) = .ok f) : f = e := by
  obtain ⟨m, hm, -, rfl⟩ := list_eq_ok_iff.1 hl
  obtain ⟨l, hr, hf⟩ := stat_eq_ok_iff.1 hs
  have hfind := mem_listing.1 he
  have ho := (resolve_eq_ok_iff.1 hr).1
  obtain rfl : l = n :: m := Except.ok.inj (hr.symm.trans (resolve_child hm hfind hlink ho))
  exact Option.some.inj (hf.symm.trans hfind)

theorem find?_of_statLink (hr : h.tree.resolve h.here .followed p = .ok m)
    (hv : n.isValid = true) (hs : h.statLink (p.child n) = .ok e) :
    h.tree.find? (n :: m) = some e := by
  obtain ⟨hne, -, -, hn, -, -⟩ := isValid_iff.1 hv
  obtain ⟨l, hl, he⟩ := statLink_eq_ok_iff.1 hs
  obtain ⟨j, hj⟩ := resolve_join hr hn hne
  have hf := ((hj _ _).1 hl).2
  rw [follow_entry (isDirectoryAt_of_follow hne hf) hv] at hf
  cases hx : h.tree.find? (n :: m) with
  | none =>
    rw [hx] at hf
    cases hf
  | some f =>
    have hloc : l = n :: m := by
      cases f <;> · rw [hx] at hf; exact (Except.ok.inj hf).symm
    rw [← he, hloc, hx]

end Host
end InstallLocator
