import InstallLocator.Proofs.Listing

/-!
# Trees of the same shape

Two trees have the same shape if they differ in nothing but what their files
hold, and the same outline if they differ besides in the order of their entries.
Paths lead to the same places in both, and every request but one for the content
of a file is answered alike.
-/

set_option autoImplicit false

namespace InstallLocator

theorem map_eq_map_cases {ε α β γ : Type} {x : Except ε α} {y : Except ε β} {f : α → γ}
    {g : β → γ} (h : x.map f = y.map g) :
    (∃ e, x = .error e ∧ y = .error e) ∨ ∃ a b, x = .ok a ∧ y = .ok b ∧ f a = g b := by
  cases x with
  | error e =>
    cases y with
    | error e' =>
      cases h
      exact Or.inl ⟨e, rfl, rfl⟩
    | ok b => cases h
  | ok a =>
    cases y with
    | error e => cases h
    | ok b => exact Or.inr ⟨a, b, rfl, rfl, Except.ok.inj h⟩

theorem map_eq_of_map_eq {α β : Type} {f : α → β} {g : α → α} {xs ys : List α}
    (hf : ∀ x, f (g x) = f x) (h : xs.map g = ys.map g) : xs.map f = ys.map f := by
  have houtline : ∀ zs : List α, zs.map f = (zs.map g).map f := by
    intro zs
    rw [List.map_map]
    exact List.map_congr_left fun x _ => (hf x).symm
  rw [houtline xs, h, ← houtline]

def Entry.shape : Entry → Entry
  | .file _ => .file []
  | e => e

@[simp] theorem Entry.shape_isDirectory (e : Entry) : e.shape.isDirectory = e.isDirectory := by
  cases e <;> rfl

@[simp] theorem Entry.shape_isFile (e : Entry) : e.shape.isFile = e.isFile := by
  cases e <;> rfl

@[simp] theorem Entry.shape_isLink (e : Entry) : e.shape.isLink = e.isLink := by
  cases e <;> rfl

def Entry.outline {α : Type} (x : α × Entry) : α × Entry := (x.1, x.2.shape)

namespace FileTree

/-- The same entries at the same places, but for what files hold. -/
def SameShape (t u : FileTree) : Prop :=
  t.entries.map Entry.outline = u.entries.map Entry.outline

/-- At each place the same entry, but for what files hold, in whatever order the
entries are. -/
def SameOutline (t u : FileTree) : Prop :=
  ∀ l, (t.find? l).map Entry.shape = (u.find? l).map Entry.shape

variable {t u : FileTree} {l : Location} {last : LastName}

theorem SameShape.sameOutline (h : t.SameShape u) : t.SameOutline u := by
  have hshape : ∀ (v : FileTree) l, (v.find? l).map Entry.shape =
      ((v.entries.map Entry.outline).find? fun x => x.1 = l).map Prod.snd := by
    intro v l
    rw [FileTree.find?, List.find?_map, Option.map_map, Option.map_map]
    rfl
  intro l
  rw [hshape, hshape, h]

namespace SameOutline

/-- What takes no notice of contents is told of both entries alike. -/
theorem congr_find? {α : Type} (h : t.SameOutline u) (l : Location) {f : Option Entry → α}
    (hf : ∀ e : Entry, f (some e.shape) = f (some e)) : f (t.find? l) = f (u.find? l) := by
  have hshape : ∀ o : Option Entry, f (o.map Entry.shape) = f o := by
    intro o
    cases o with
    | none => rfl
    | some e => exact hf e
  rw [← hshape, h l, hshape]

theorem isDirectoryAt (h : t.SameOutline u) (l : Location) :
    t.isDirectoryAt l = u.isDirectoryAt l :=
  h.congr_find? l (f := (· == some .directory)) fun e => by cases e <;> rfl

theorem holdsDirectory (h : t.SameOutline u) (l : Location) :
    t.holdsDirectory l = u.holdsDirectory l :=
  h.congr_find? l (f := (·.any Entry.isDirectory)) Entry.shape_isDirectory

theorem refusal (h : t.SameOutline u) (l : Location) : t.refusal l = u.refusal l :=
  h.congr_find? l (f := fun o => (o.bind Entry.closing?).getD .notADirectory)
    fun e => by cases e <;> rfl

theorem mem_namesIn_iff (h : t.SameOutline u) {l : Location} {n : Name} :
    n ∈ t.namesIn l ↔ n ∈ u.namesIn l := by
  have hsome : ∀ v : FileTree, n ∈ v.namesIn l ↔
      ((v.find? (n :: l)).map Entry.shape).isSome = true := by
    intro v
    rw [mem_namesIn, Option.isSome_map, Option.isSome_iff_exists]
  rw [hsome, hsome, h]

theorem sorted_names (h : t.SameOutline u) (l : Location) :
    (t.namesIn l).mergeSort Name.le = (u.namesIn l).mergeSort Name.le := by
  have hperm : (t.namesIn l).Perm (u.namesIn l) :=
    (List.perm_ext_iff_of_nodup (t.namesIn_nodup l) (u.namesIn_nodup l)).2
      fun _ => h.mem_namesIn_iff
  exact List.Perm.eq_of_pairwise (fun _ _ _ _ => Name.le_antisymm)
    (List.pairwise_mergeSort Name.le_trans Name.le_total _)
    (List.pairwise_mergeSort Name.le_trans Name.le_total _)
    ((List.mergeSort_perm _ _).trans (hperm.trans (List.mergeSort_perm _ _).symm))

theorem listing (h : t.SameOutline u) (l : Location) :
    (t.listing l).map Entry.outline = (u.listing l).map Entry.outline := by
  have houtline : ∀ v : FileTree, (v.listing l).map Entry.outline =
      ((v.namesIn l).mergeSort Name.le).filterMap fun n =>
        ((v.find? (n :: l)).map Entry.shape).map (n, ·) := by
    intro v
    simp only [FileTree.listing, List.map_filterMap, Option.map_map]
    rfl
  rw [houtline, houtline, h.sorted_names l]
  simp only [h _]

theorem walk (h : t.SameOutline u) {f g : Location → List Name → Except IoError Location}
    (hlink : f = g) (l : Location) (names : List Name) :
    t.walk last f l names = u.walk last g l names := by
  subst hlink
  induction names generalizing l with
  | nil => rfl
  | cons n rest ih =>
    have hs := h (n :: l)
    rw [FileTree.walk, FileTree.walk, h.isDirectoryAt l, h.holdsDirectory l, h.refusal l, ih l,
      ih l.tail, ih (n :: l)]
    cases ht : t.find? (n :: l) with
    | none =>
      rw [ht] at hs
      rw [Option.map_eq_none_iff.1 hs.symm]
    | some e =>
      cases hu : u.find? (n :: l) with
      | none =>
        rw [ht, hu] at hs
        cases hs
      | some f =>
        -- A walk asks for the kind of an entry and for the text of a link, which the shape keeps.
        rw [ht, hu] at hs
        have hef : e.shape = f.shape := Option.some.inj hs
        cases e <;> cases f <;> cases hef <;> rfl

theorem follow (h : t.SameOutline u) (k : Nat) : t.follow last k = u.follow last k := by
  induction k with
  | zero =>
    funext l names
    exact h.walk rfl l names
  | succ k ih =>
    funext l names
    exact h.walk ih l names

theorem resolve (h : t.SameOutline u) (here : Location) (last : LastName) (p : Path) :
    t.resolve here last p = u.resolve here last p := by
  simp only [FileTree.resolve, h.follow]

end SameOutline
end FileTree

namespace Host

/-- The same machine, but for what its files hold. -/
structure SameShape (h g : Host) : Prop where
  tree : h.tree.SameShape g.tree
  here : h.here = g.here
  environment : h.environment = g.environment

/-- The same machine, but for what its files hold and for the order of its entries. -/
structure SameOutline (h g : Host) : Prop where
  tree : h.tree.SameOutline g.tree
  here : h.here = g.here
  environment : h.environment = g.environment

variable {h g : Host}

theorem SameShape.sameOutline (hs : h.SameShape g) : h.SameOutline g :=
  ⟨hs.tree.sameOutline, hs.here, hs.environment⟩

theorem isOk_eq {x y : Except IoError Entry} (hxy : x.map Entry.shape = y.map Entry.shape) :
    x.isOk = y.isOk := by
  rcases map_eq_map_cases hxy with ⟨cause, rfl, rfl⟩ | ⟨e, f, rfl, rfl, -⟩
  · rfl
  · rfl

namespace SameOutline

theorem resolve (hs : h.SameOutline g) (last : FileTree.LastName) (p : Path) :
    h.tree.resolve h.here last p = g.tree.resolve g.here last p := by
  rw [hs.here, hs.tree.resolve]

theorem entryAt (hs : h.SameOutline g) (l : Location) :
    (h.entryAt l).map Entry.shape = (g.entryAt l).map Entry.shape := by
  have hshape : ∀ k : Host, (k.entryAt l).map Entry.shape =
      ((k.tree.find? l).map Entry.shape).elim (.error .notFound) .ok := by
    intro k
    unfold Host.entryAt
    cases k.tree.find? l <;> rfl
  rw [hshape, hshape, hs.tree l]

theorem stat (hs : h.SameOutline g) (p : Path) :
    (h.stat p).map Entry.shape = (g.stat p).map Entry.shape := by
  simp only [Host.stat, hs.resolve .followed p]
  cases g.tree.resolve g.here .followed p with
  | error e => rfl
  | ok l => exact hs.entryAt l

theorem statLink (hs : h.SameOutline g) (p : Path) :
    (h.statLink p).map Entry.shape = (g.statLink p).map Entry.shape := by
  simp only [Host.statLink, hs.resolve .kept p]
  cases g.tree.resolve g.here .kept p with
  | error e => rfl
  | ok l => exact hs.entryAt l

theorem isDirectory (hs : h.SameOutline g) (p : Path) : h.isDirectory p = g.isDirectory p := by
  unfold Host.isDirectory
  rcases map_eq_map_cases (hs.stat p) with ⟨cause, hh, hg⟩ | ⟨e, f, hh, hg, hef⟩
  · rw [hh, hg]
  · rw [hh, hg]
    change e.isDirectory = f.isDirectory
    rw [← e.shape_isDirectory, hef, f.shape_isDirectory]

theorem list (hs : h.SameOutline g) (p : Path) :
    (h.list p).map (List.map Entry.outline) = (g.list p).map (List.map Entry.outline) := by
  have hlist : ∀ k : Host, (k.list p).map (List.map Entry.outline) =
      match k.tree.resolve k.here .followed p with
      | .error e => .error e
      | .ok l =>
        if k.tree.isDirectoryAt l then .ok ((k.tree.listing l).map Entry.outline)
        else .error (k.tree.refusal l) := by
    intro k
    simp only [Host.list, bind, Except.bind]
    cases k.tree.resolve k.here .followed p with
    | error e => rfl
    | ok l => cases hd : k.tree.isDirectoryAt l <;> simp only [hd] <;> rfl
  simp only [hlist, hs.resolve, hs.tree.isDirectoryAt, hs.tree.refusal, hs.tree.listing]

end SameOutline
end Host

def Entry.refilled (content : Bytes) : Entry → Entry
  | .file _ => .file content
  | e => e

theorem Entry.shape_refilled (content : Bytes) (e : Entry) :
    (e.refilled content).shape = e.shape := by
  cases e <;> rfl

namespace FileTree

def refillAt (l : Location) (content : Bytes) (x : Location × Entry) : Location × Entry :=
  (x.1, if x.1 = l then x.2.refilled content else x.2)

theorem refillAt_directory (l m : Location) (content : Bytes) :
    refillAt l content (m, .directory) = (m, .directory) :=
  Prod.ext rfl (ite_self _)

def refill (t : FileTree) (l : Location) (content : Bytes) : FileTree where
  entries := t.entries.map (refillAt l content)
  root_mem := List.mem_map.2 ⟨_, t.root_mem, refillAt_directory l [] content⟩
  nodup := by
    rw [List.map_map]
    exact t.nodup
  parent_mem n m e he := by
    obtain ⟨⟨k, f⟩, hx, hxe⟩ := List.mem_map.1 he
    obtain ⟨rfl, -⟩ := Prod.mk.inj hxe
    exact List.mem_map.2 ⟨_, t.parent_mem n m f hx, refillAt_directory l m content⟩
  valid n m e he := by
    obtain ⟨⟨k, f⟩, hx, hxe⟩ := List.mem_map.1 he
    obtain ⟨rfl, -⟩ := Prod.mk.inj hxe
    exact t.valid n m f hx

variable {t : FileTree} {l m : Location} {content old : Bytes}

theorem sameShape_refill (t : FileTree) (l : Location) (content : Bytes) :
    t.SameShape (t.refill l content) := by
  unfold SameShape refill
  rw [List.map_map]
  refine List.map_congr_left fun x _ => Prod.ext rfl ?_
  change x.2.shape = (if x.1 = l then x.2.refilled content else x.2).shape
  split
  · exact (x.2.shape_refilled content).symm
  · rfl

theorem find?_refill_of_ne (hm : m ≠ l) : (t.refill l content).find? m = t.find? m := by
  refine Option.ext fun e => ?_
  rw [find?_eq_some_iff, find?_eq_some_iff]
  constructor
  · intro he
    obtain ⟨⟨k, f⟩, hx, hxe⟩ := List.mem_map.1 he
    obtain ⟨rfl, rfl⟩ := Prod.mk.inj hxe
    rwa [if_neg hm]
  · intro he
    exact List.mem_map.2 ⟨_, he, Prod.ext rfl (if_neg hm)⟩

theorem find?_refill (h : t.find? l = some (.file old)) :
    (t.refill l content).find? l = some (.file content) :=
  find?_eq_some_iff.2
    (List.mem_map.2 ⟨_, find?_eq_some_iff.1 h, by simp [refillAt, Entry.refilled]⟩)

end FileTree

namespace Host

def refilled (h : Host) (l : Location) (content : Bytes) : Host :=
  { h with tree := h.tree.refill l content }

variable {h : Host} {l : Location} {content old : Bytes} {p : Path}

theorem sameShape_refilled (h : Host) (l : Location) (content : Bytes) :
    h.SameShape (h.refilled l content) :=
  ⟨h.tree.sameShape_refill l content, rfl, rfl⟩

theorem sameOutline_refilled (h : Host) (l : Location) (content : Bytes) :
    h.SameOutline (h.refilled l content) :=
  (h.sameShape_refilled l content).sameOutline

theorem stat_refilled_of_ne (hp : h.tree.resolve h.here .followed p ≠ .ok l) :
    (h.refilled l content).stat p = h.stat p := by
  simp only [stat, ← (h.sameOutline_refilled l content).resolve]
  cases hr : h.tree.resolve h.here .followed p with
  | error e => rfl
  | ok m =>
    have hm : m ≠ l := fun hml => hp (hml ▸ hr)
    change entryAt _ m = entryAt h m
    unfold entryAt
    rw [refilled, FileTree.find?_refill_of_ne hm]

theorem stat_refilled (hp : h.tree.resolve h.here .followed p = .ok l)
    (hl : h.tree.find? l = some (.file old)) :
    (h.refilled l content).stat p = .ok (.file content) := by
  refine stat_eq_ok_iff.2 ⟨l, ?_, FileTree.find?_refill hl⟩
  rw [← (h.sameOutline_refilled l content).resolve, hp]

end Host
end InstallLocator
