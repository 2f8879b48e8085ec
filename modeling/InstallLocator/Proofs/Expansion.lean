import InstallLocator.Proofs.Escaping
import InstallLocator.Proofs.Listing
import InstallLocator.Proofs.Utf8Exact

/-!
# Expanding a path with plain names

A component that stands for one name leads to that name and nothing else, be it
looked up or found in a listing. The base of a pattern is the path of those
names. If it is a directory the expansion goes on from there, and otherwise
nothing is found.
-/

set_option autoImplicit false

namespace InstallLocator.Glob

/-- Everything that a task leads to. -/
def allResults (h : Host) (onlyDirectories : Bool) :
    Nat → Task → List (Except ExpandError Path)
  | 0, _ => []
  | depth + 1, t =>
    (perform h onlyDirectories t).1.toList ++
      (perform h onlyDirectories t).2.flatMap (allResults h onlyDirectories depth)

theorem firstOf_eq_take {α β : Type} {results : Nat → α → List β} {all : α → List β}
    (h : ∀ limit t, results limit t = (all t).take limit) (limit : Nat) (ts : List α) :
    firstOf results limit ts = (ts.flatMap all).take limit := by
  induction ts generalizing limit with
  | nil => cases limit <;> rfl
  | cons t ts ih =>
    cases limit with
    | zero => rfl
    | succ limit =>
      rw [firstOf, ih, h, List.flatMap_cons, List.take_append, List.length_take]
      · congr 2
        omega
      · exact Nat.succ_ne_zero limit

theorem results_eq_take (h : Host) (onlyDirectories : Bool) (depth limit : Nat) (t : Task) :
    results h onlyDirectories depth limit t =
      (allResults h onlyDirectories depth t).take limit := by
  induction depth generalizing limit t with
  | zero => simp [results, allResults]
  | succ depth ih =>
    -- What the task gives at once takes up the room first.
    rw [results, allResults, List.take_append]
    simp only
    rw [firstOf_eq_take ih, List.length_take]
    congr 2
    omega

/-- Everything that components give under a path, up to a depth. -/
def expansion (h : Host) (depth : Nat) (components : List Component) (p : Path)
    (directory : Bool) : List (Except ExpandError Path) :=
  (descend h components p directory).flatMap (allResults h false depth)

theorem expand_eq_take (h : Host) (components : List Component) (limit : Nat) :
    Pattern.expand h ⟨true, components, false⟩ limit =
      (expansion h (FileTree.maxPathLength + 2) components ⟨[Path.slash]⟩
        (h.isDirectory ⟨[Path.slash]⟩)).take limit :=
  firstOf_eq_take (results_eq_take h false _) limit _

/-- Nothing is found, whatever could not be listed. -/
def OnlyErrors (rs : List (Except ExpandError Path)) : Prop := ∀ r ∈ rs, ∃ e, r = .error e

theorem onlyErrors_nil : OnlyErrors [] := by
  intro r hr
  cases hr

section
variable {h : Host} {p : Path} {cs : List Char} {openEnded directory : Bool} {depth : Nat}
  {rest : List Component}

theorem not_isHere (hp : p.isAbsolute = true) : isHere p = false := by
  have hc : p.components ≠ [.current] := by
    rw [Path.components_eq_names, Path.lead, if_pos hp]
    simp
  exact decide_eq_false hc

def lookedUp (h : Host) (rest : List Component) (q : Path) : List Task :=
  if rest.isEmpty then [.found q (h.isDirectory q)] else descend h rest q (h.isDirectory q)

/-- Whether a plain name counts as there. The names `.` and `..` are not looked up. -/
def isThere (h : Host) (p : Path) (directory : Bool) (cs : List Char) : Bool :=
  if cs = currentChars ∨ cs = parentChars then directory
  else (h.stat (p.child (Utf8.encode cs))).isOk || (h.statLink (p.child (Utf8.encode cs))).isOk

theorem descend_plain (hp : p.isAbsolute = true) (hcs : ∀ c ∈ cs, ¬ IsMeta c) :
    descend h (component cs false :: rest) p directory =
      if isThere h p directory cs then lookedUp h rest (p.child (Utf8.encode cs)) else [] := by
  rw [descend, literal?_of_plain hcs, not_isHere hp]
  rfl

def Undotted (cs : List Char) (openEnded : Bool) : Prop :=
  isMatch (component cs openEnded) currentChars = false ∧
    isMatch (component cs openEnded) parentChars = false

theorem undotted_of_meta (hcs : ∃ c ∈ cs, IsMeta c) : Undotted cs false := by
  obtain ⟨c, hc, hm⟩ := hcs
  have hne : ∀ s, (∀ d ∈ s, ¬ IsMeta d) → isMatch (component cs false) s = false := by
    intro s hs
    rw [Bool.eq_false_iff, Ne, isMatch_component]
    rintro ⟨more, rfl, -⟩
    exact hs c (List.mem_append_left more hc) hm
  constructor
  · apply hne
    simp [currentChars, IsMeta]
  · apply hne
    simp [parentChars, IsMeta]

theorem undotted_of_head? (hne : cs ≠ []) (hcs : cs.head? ≠ some '.') :
    Undotted cs openEnded := by
  obtain ⟨c, cs, rfl⟩ := List.exists_cons_of_ne_nil hne
  have hc : c ≠ '.' := fun hc => hcs (congrArg some hc)
  constructor
  all_goals
    rw [Bool.eq_false_iff, Ne, isMatch_component]
    rintro ⟨more, hm, -⟩
    exact hc (List.cons.inj hm).1.symm

theorem descend_listed (hl : literal? (component cs openEnded) = none)
    (hu : Undotted cs openEnded) :
    descend h (component cs openEnded :: rest) p directory =
      if directory then
        match h.list p with
        | .error e => [.failed ⟨p, e⟩]
        | .ok es => es.map (entryTask h p (component cs openEnded :: rest))
      else [] := by
  rw [descend, hl]
  cases directory with
  | false => rfl
  | true =>
    simp only [if_true]
    cases h.list p with
    | error e => rfl
    | ok es => simp [hu.1, hu.2]

theorem perform_matching (c : Component) (hc : isRecursive c = false) :
    perform h false (.matching p directory (c :: rest)) =
      ((matchName h false p directory (c :: rest)).1.map .ok,
        (matchName h false p directory (c :: rest)).2) := by
  simp [perform, hc]

theorem nameText?_child (hp : p.isAbsolute = true) {n : Name} (hn : n.isValid = true) :
    nameText? (p.child n) = Utf8.decode? n := by
  obtain ⟨hne, hcur, hpar, hs, -, -⟩ := FileTree.isValid_iff.1 hn
  rw [nameText?, Path.child, Path.fileName?_join (Path.ne_nil_of_isAbsolute hp) hs hne hcur hpar]
  rfl

def opens (h : Host) (q : Path) : Entry → Bool
  | .link _ => h.isDirectory q
  | e => e.isDirectory

theorem entryTask_eq (hp : p.isAbsolute = true) (components : List Component)
    (x : Name × Entry) : entryTask h p components x =
      .matching (p.child x.1) (opens h (p.child x.1) x.2) components := by
  rw [entryTask, not_isHere hp]
  cases x.2 <;> rfl

theorem allResults_entry (hp : p.isAbsolute = true) {x : Name × Entry}
    (hn : x.1.isValid = true) :
    allResults h false (depth + 1) (entryTask h p (component cs openEnded :: rest) x) =
      if (Utf8.decode? x.1).any (isMatch (component cs openEnded)) then
        if rest.isEmpty then [.ok (p.child x.1)]
        else expansion h depth rest (p.child x.1) (opens h (p.child x.1) x.2)
      else [] := by
  rw [entryTask_eq hp, allResults, perform_matching _ (not_isRecursive_component cs openEnded),
    matchName, nameText?_child hp hn]
  cases Utf8.decode? x.1 with
  | none => rfl
  | some name =>
    by_cases hm : isMatch (component cs openEnded) name = true
    · cases rest with
      | nil => simp [hm]
      | cons d rest => simp [hm, expansion]
    · simp [hm]

theorem any_isMatch_iff {n : Name} :
    (Utf8.decode? n).any (isMatch (component cs false)) = true ↔ n = Utf8.encode cs := by
  rw [Option.any_eq_true, ← Utf8.decode?_eq_some_iff]
  constructor
  · rintro ⟨name, hname, hm⟩
    obtain ⟨more, rfl, hmore⟩ := isMatch_component.1 hm
    rw [hname, hmore rfl, List.append_nil]
  · intro hname
    exact ⟨cs, hname, isMatch_component.2 ⟨[], (List.append_nil cs).symm, fun _ => rfl⟩⟩

theorem expansion_zero (components : List Component) :
    expansion h 0 components p directory = [] := by
  rw [expansion, List.flatMap_eq_nil_iff]
  intro t _
  rfl

theorem expansion_shut (hl : literal? (component cs openEnded) = none)
    (hu : Undotted cs openEnded) :
    expansion h depth (component cs openEnded :: rest) p false = [] := by
  rw [expansion, descend_listed hl hu]
  rfl

theorem expansion_plain (hp : p.isAbsolute = true) (hcs : ∀ c ∈ cs, ¬ IsMeta c)
    (hrest : rest ≠ []) :
    expansion h depth (component cs false :: rest) p directory =
      if isThere h p directory cs then
        expansion h depth rest (p.child (Utf8.encode cs)) (h.isDirectory (p.child (Utf8.encode cs)))
      else [] := by
  have hempty : ¬ rest.isEmpty = true := by simpa using hrest
  rw [expansion, descend_plain hp hcs, lookedUp, if_neg hempty]
  split <;> rfl

theorem expansion_last (hp : p.isAbsolute = true) (hcs : ∀ c ∈ cs, ¬ IsMeta c) :
    expansion h (depth + 1) [component cs false] p directory =
      if isThere h p directory cs then [.ok (p.child (Utf8.encode cs))] else [] := by
  rw [expansion, descend_plain hp hcs]
  split <;> rfl

theorem expansion_unlisted (hl : literal? (component cs openEnded) = none)
    (hu : Undotted cs openEnded) (hd : h.stat p ≠ .ok .directory) :
    OnlyErrors (expansion h depth (component cs openEnded :: rest) p directory) := by
  cases directory with
  | false =>
    rw [expansion_shut hl hu]
    exact onlyErrors_nil
  | true =>
    cases depth with
    | zero =>
      rw [expansion_zero]
      exact onlyErrors_nil
    | succ depth =>
      rw [expansion, descend_listed hl hu, if_pos rfl]
      cases hlist : h.list p with
      | ok es => exact absurd (Host.stat_of_list hlist) hd
      | error e =>
        intro r hr
        exact ⟨_, List.mem_singleton.1 hr⟩

theorem expansion_listed {l : Location} (hp : p.isAbsolute = true)
    (hr : h.tree.resolve h.here .followed p = .ok l) (hd : h.tree.isDirectoryAt l = true)
    (hl : literal? (component cs openEnded) = none) (hu : Undotted cs openEnded) :
    expansion h (depth + 1) (component cs openEnded :: rest) p true =
      (h.tree.listing l).flatMap fun x =>
        if (Utf8.decode? x.1).any (isMatch (component cs openEnded)) then
          if rest.isEmpty then [.ok (p.child x.1)]
          else expansion h depth rest (p.child x.1) (opens h (p.child x.1) x.2)
        else [] := by
  rw [expansion, descend_listed hl hu, if_pos rfl, Host.list_of_directory hr hd]
  simp only [List.flatMap_def, List.map_map]
  congr 1
  apply List.map_congr_left
  intro x hx
  exact allResults_entry hp (FileTree.isValid_of_find? (FileTree.mem_listing.1 hx))

end

section
variable {h : Host} {p : Path} {cs : List Char} {directory : Bool} {depth : Nat}
  {rest : List Component} {names : List (List Char)}

theorem slash_not_mem_encode (hcs : '/' ∉ cs) : Path.slash ∉ Utf8.encode cs := by
  intro hs
  exact hcs (Utf8.mem_of_mem_encode hs (by decide))

def under (p : Path) (names : List (List Char)) : Path :=
  names.foldl (fun q n => q.child (Utf8.encode n)) p

theorem under_cons (p : Path) (n : List Char) (names : List (List Char)) :
    under p (n :: names) = under (p.child (Utf8.encode n)) names :=
  rfl

theorem isAbsolute_child (hp : p.isAbsolute = true) (hcs : '/' ∉ cs) :
    (p.child (Utf8.encode cs)).isAbsolute = true := by
  rw [Path.child, Path.isAbsolute_join (Path.ne_nil_of_isAbsolute hp) (slash_not_mem_encode hcs),
    hp]

theorem isAbsolute_under (hp : p.isAbsolute = true) (hnames : ∀ n ∈ names, '/' ∉ n) :
    (under p names).isAbsolute = true := by
  induction names generalizing p with
  | nil => exact hp
  | cons n names ih =>
    obtain ⟨hn, hns⟩ := List.forall_mem_cons.1 hnames
    exact ih (isAbsolute_child hp hn) hns

theorem stat_of_under (hp : p.isAbsolute = true) (hnames : ∀ n ∈ names, '/' ∉ n)
    (hd : h.stat (under p names) = .ok .directory) : h.stat p = .ok .directory := by
  induction names generalizing p with
  | nil => exact hd
  | cons n names ih =>
    obtain ⟨hn, hns⟩ := List.forall_mem_cons.1 hnames
    have hc := ih (isAbsolute_child hp hn) hns hd
    exact Host.stat_of_join (Path.ne_nil_of_isAbsolute hp) (slash_not_mem_encode hn) hc

theorem length_le_under (hp : p.isAbsolute = true) (hnames : ∀ n ∈ names, '/' ∉ n) :
    p.bytes.length ≤ (under p names).bytes.length := by
  induction names generalizing p with
  | nil => exact Nat.le_refl _
  | cons n names ih =>
    obtain ⟨hn, hns⟩ := List.forall_mem_cons.1 hnames
    have hs := (Path.isStart_join p (slash_not_mem_encode hn)).length_le
    exact Nat.le_trans hs (ih (isAbsolute_child hp hn) hns)

theorem onlyErrors_meta (hp : p.isAbsolute = true) (hm : ∃ c ∈ cs, IsMeta c) (hrest : rest ≠ [])
    (hnext : ∀ depth directory,
      OnlyErrors (expansion h depth rest (p.child (Utf8.encode cs)) directory)) :
    OnlyErrors (expansion h depth (component cs false :: rest) p directory) := by
  have hl : literal? (component cs false) = none := literal?_of_meta (Or.inr hm)
  have hu := undotted_of_meta hm
  by_cases hd : h.stat p = .ok .directory
  · obtain ⟨l, hres, hdir⟩ := Host.stat_directory_iff.1 hd
    cases depth with
    | zero =>
      rw [expansion_zero]
      exact onlyErrors_nil
    | succ depth =>
      cases directory with
      | false =>
        rw [expansion_shut hl hu]
        exact onlyErrors_nil
      | true =>
        rw [expansion_listed hp hres hdir hl hu]
        intro r hr
        obtain ⟨x, -, hx⟩ := List.mem_flatMap.1 hr
        split at hx
        · rename_i hmatch
          rw [if_neg (by simpa using hrest), any_isMatch_iff.1 hmatch] at hx
          exact hnext _ _ r hx
        · cases hx
  · exact expansion_unlisted hl hu hd

theorem onlyErrors_of_not_directory {last : Component}
    (hlast : ∀ depth p directory, p.isAbsolute = true → h.stat p ≠ .ok .directory →
      OnlyErrors (expansion h depth [last] p directory))
    (hp : p.isAbsolute = true) (hnames : ∀ n ∈ names, '/' ∉ n)
    (hd : h.stat (under p names) ≠ .ok .directory) :
    OnlyErrors
      (expansion h depth ((names.map fun n => component n false) ++ [last]) p directory) := by
  induction names generalizing p depth directory with
  | nil => exact hlast depth p directory hp hd
  | cons n names ih =>
    obtain ⟨hn, hns⟩ := List.forall_mem_cons.1 hnames
    have hq := isAbsolute_child hp hn
    rw [List.map_cons, List.cons_append]
    by_cases hm : ∀ c ∈ n, ¬ IsMeta c
    · rw [expansion_plain hp hm (by simp)]
      split
      · exact ih hq hns hd
      · exact onlyErrors_nil
    · exact onlyErrors_meta hp (by simpa using hm) (by simp) fun _ _ => ih hq hns hd

theorem isThere_of_stat {e : Entry} (hs : h.stat (p.child (Utf8.encode cs)) = .ok e) :
    isThere h p true cs = true := by
  rw [isThere]
  split
  · rfl
  · rw [hs]
    rfl

theorem flatMap_of_nodup {α : Type} {l : List (Name × Entry)} (hn : (l.map Prod.fst).Nodup)
    {x : Name × Entry} (hx : x ∈ l) {f : Name × Entry → List α}
    (hf : ∀ y ∈ l, y.1 ≠ x.1 → f y = []) : l.flatMap f = f x := by
  induction l with
  | nil => cases hx
  | cons y l ih =>
    rw [List.map_cons, List.nodup_cons] at hn
    rw [List.flatMap_cons]
    rcases List.mem_cons.1 hx with rfl | hx
    · have hrest : l.flatMap f = [] := by
        rw [List.flatMap_eq_nil_iff]
        intro z hz
        apply hf z (List.mem_cons_of_mem _ hz)
        intro he
        exact hn.1 (he ▸ List.mem_map_of_mem hz)
      rw [hrest, List.append_nil]
    · have hy : f y = [] := by
        apply hf y List.mem_cons_self
        intro he
        exact hn.1 (he ▸ List.mem_map_of_mem hx)
      rw [hy, List.nil_append, ih hn.2 hx fun z hz => hf z (List.mem_cons_of_mem y hz)]

theorem encode_ne_dots (hm : ∃ c ∈ cs, IsMeta c) :
    Utf8.encode cs ≠ Path.currentName ∧ Utf8.encode cs ≠ Path.parentName := by
  have hne : ∀ s, (∀ d ∈ s, ¬ IsMeta d) → Utf8.encode cs ≠ Utf8.encode s := by
    intro s hs he
    obtain ⟨c, hc, hcm⟩ := hm
    exact hs c (Utf8.encode_injective he ▸ hc) hcm
  constructor
  · apply hne currentChars
    simp [currentChars, IsMeta]
  · apply hne parentChars
    simp [parentChars, IsMeta]

theorem exists_entry {l : Location} (hcs : '/' ∉ cs)
    (hm : ∃ c ∈ cs, IsMeta c) (hr : h.tree.resolve h.here .followed p = .ok l)
    (hd : h.stat (p.child (Utf8.encode cs)) = .ok .directory) :
    ∃ e, h.tree.find? (Utf8.encode cs :: l) = some e ∧
      opens h (p.child (Utf8.encode cs)) e = true := by
  have hne : cs ≠ [] := by
    rintro rfl
    simp at hm
  obtain ⟨hcur, hpar⟩ := encode_ne_dots hm
  have hnil := Utf8.encode_ne_nil hne
  obtain ⟨x, hx, hxd⟩ := Host.stat_eq_ok_iff.1 hd
  obtain ⟨j, hj⟩ := FileTree.resolve_join hr (slash_not_mem_encode hcs) hnil
  obtain ⟨e, he, hloc⟩ := FileTree.find?_of_follow hnil hcur hpar ((hj _ _).1 hx).2
  refine ⟨e, he, ?_⟩
  cases hl : e.isLink with
  | true =>
    cases e <;> cases hl
    exact Host.isDirectory_of_stat hd
  | false =>
    rw [hloc hl, he] at hxd
    cases hxd
    rfl

theorem expansion_meta (hp : p.isAbsolute = true) (hcs : '/' ∉ cs) (hm : ∃ c ∈ cs, IsMeta c)
    (hd : h.stat (p.child (Utf8.encode cs)) = .ok .directory) (hrest : rest ≠ []) :
    expansion h (depth + 1) (component cs false :: rest) p true =
      expansion h depth rest (p.child (Utf8.encode cs)) true := by
  have hl : literal? (component cs false) = none := literal?_of_meta (Or.inr hm)
  have hpd := Host.stat_of_join (Path.ne_nil_of_isAbsolute hp) (slash_not_mem_encode hcs) hd
  obtain ⟨l, hres, hdir⟩ := Host.stat_directory_iff.1 hpd
  obtain ⟨e, he, ho⟩ := exists_entry hcs hm hres hd
  have hempty : ¬ rest.isEmpty = true := by simpa using hrest
  rw [expansion_listed hp hres hdir hl (undotted_of_meta hm),
    flatMap_of_nodup (h.tree.listing_nodup l) (FileTree.mem_listing.2 he),
    if_pos (any_isMatch_iff.2 rfl), if_neg hempty, ho]
  intro y _ hy
  rw [if_neg fun hmatch => hy (any_isMatch_iff.1 hmatch)]

theorem expansion_under {last : Component} (hp : p.isAbsolute = true)
    (hnames : ∀ n ∈ names, '/' ∉ n) (hd : h.stat (under p names) = .ok .directory)
    (hdepth : (under p names).bytes.length < p.bytes.length + depth) :
    ∃ depth', expansion h depth ((names.map fun n => component n false) ++ [last]) p true =
      expansion h (depth' + 1) [last] (under p names) true := by
  induction names generalizing p depth with
  | nil =>
    cases depth with
    | zero => exact absurd hdepth (Nat.lt_irrefl _)
    | succ depth => exact ⟨depth, rfl⟩
  | cons n names ih =>
    obtain ⟨hn, hns⟩ := List.forall_mem_cons.1 hnames
    have hq := isAbsolute_child hp hn
    have hqd := stat_of_under hq hns hd
    have hlen := length_le_under hq hns
    -- A name that is looked up costs no depth; one that is listed costs one level and
    -- makes the path longer.
    rw [List.map_cons, List.cons_append]
    by_cases hm : ∀ c ∈ n, ¬ IsMeta c
    · rw [expansion_plain hp hm (by simp), if_pos (isThere_of_stat hqd),
        Host.isDirectory_of_stat hqd]
      apply ih hq hns hd
      have hle := (Path.isStart_join p (slash_not_mem_encode hn)).length_le
      exact Nat.lt_of_lt_of_le hdepth (Nat.add_le_add_right hle depth)
    · have hm : ∃ c ∈ n, IsMeta c := by simpa using hm
      have hne : n ≠ [] := by
        rintro rfl
        simp at hm
      have hlt : p.bytes.length < (p.child (Utf8.encode n)).bytes.length :=
        Path.length_lt_join p (slash_not_mem_encode hn) (Utf8.encode_ne_nil hne)
      rw [under_cons] at hdepth
      cases depth with
      | zero => omega
      | succ depth =>
        rw [expansion_meta hp hn hm hqd (by simp)]
        apply ih hq hns hd
        omega

end

end InstallLocator.Glob
