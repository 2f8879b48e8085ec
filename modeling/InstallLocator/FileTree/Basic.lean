import InstallLocator.IoError
import InstallLocator.Path

/-!
# File trees

A finite tree of directories, files and links. An entry stands at a location,
the names from the entry up to the root. Every entry but the root stands in a
directory under a valid name, and no location has two entries; the order of
the entries is the order in which directories are listed. Files that cannot be
read and directories that cannot be opened are entries of their own, each with
the reason; what such a directory holds is not part of the tree.
-/

set_option autoImplicit false

namespace InstallLocator

/-- Names an entry may have: not empty, `.` or `..`, without slash and NUL,
and at most 255 bytes long. -/
def Name.isValid (n : Name) : Bool :=
  n ≠ [] && n ≠ Path.currentName && n ≠ Path.parentName &&
    !n.contains Path.slash && !n.contains 0 && n.length ≤ 255

abbrev Location := List Name

/-- A sealed file shows its size alone, and a closed directory can be neither
listed nor entered. -/
inductive Entry
  | directory
  | closed (cause : IoError)
  | file (content : Bytes)
  | sealed (size : Nat) (cause : IoError)
  | link (target : Bytes)
  | device
deriving DecidableEq

namespace Entry

def isDirectory : Entry → Bool
  | directory => true
  | closed _ => true
  | _ => false

def size? : Entry → Option Nat
  | file content => some content.length
  | sealed size _ => some size
  | _ => none

def isFile (e : Entry) : Bool := e.size?.isSome

def isLink : Entry → Bool
  | link _ => true
  | _ => false

def closing? : Entry → Option IoError
  | closed cause => some cause
  | _ => none

def refusal? : Entry → Option IoError
  | closed cause => some cause
  | sealed _ cause => some cause
  | _ => none

def read : Entry → Except IoError Bytes
  | file content => .ok content
  | device => .ok []
  | e => .error (e.refusal?.getD .isADirectory)

end Entry

structure FileTree where
  entries : List (Location × Entry)
  root_mem : ([], Entry.directory) ∈ entries
  nodup : (entries.map Prod.fst).Nodup
  parent_mem : ∀ n l e, (n :: l, e) ∈ entries → (l, Entry.directory) ∈ entries
  valid : ∀ n l e, (n :: l, e) ∈ entries → n.isValid = true

namespace FileTree

def empty : FileTree where
  entries := [([], .directory)]
  root_mem := by simp
  nodup := by simp
  parent_mem := by simp
  valid := by simp

def find? (t : FileTree) (l : Location) : Option Entry :=
  (t.entries.find? fun x => x.1 = l).map Prod.snd

theorem eq_of_mem {es : List (Location × Entry)} (h : (es.map Prod.fst).Nodup)
    {l : Location} {a b : Entry} (ha : (l, a) ∈ es) (hb : (l, b) ∈ es) : a = b := by
  induction es with
  | nil => cases ha
  | cons x es ih =>
    simp only [List.map_cons, List.nodup_cons] at h
    have out : ∀ e, (l, e) ∈ es → l ∈ es.map Prod.fst :=
      fun e he => List.mem_map_of_mem (f := Prod.fst) he
    rcases List.mem_cons.1 ha with rfl | ha' <;> rcases List.mem_cons.1 hb with hb' | hb'
    · exact (Prod.mk.inj hb').2.symm
    · exact absurd (out b hb') h.1
    · subst hb'; exact absurd (out a ha') h.1
    · exact ih h.2 ha' hb'

theorem find?_eq_some_iff {t : FileTree} {l : Location} {e : Entry} :
    t.find? l = some e ↔ (l, e) ∈ t.entries := by
  constructor
  · intro h
    obtain ⟨x, hx, rfl⟩ := Option.map_eq_some_iff.1 h
    have hl : x.1 = l := by simpa using List.find?_some hx
    exact hl ▸ List.mem_of_find?_eq_some hx
  · intro h
    cases hf : t.entries.find? fun x => x.1 = l with
    | none =>
      have := List.find?_eq_none.1 hf _ h
      simp at this
    | some x =>
      have hl : x.1 = l := by simpa using List.find?_some hf
      have hx : (l, x.2) ∈ t.entries := hl ▸ List.mem_of_find?_eq_some hf
      simp [find?, hf, eq_of_mem t.nodup hx h]

theorem find?_root (t : FileTree) : t.find? [] = some .directory :=
  find?_eq_some_iff.2 t.root_mem

/-- A directory stands there that can be entered. -/
def isDirectoryAt (t : FileTree) (l : Location) : Bool :=
  t.find? l == some .directory

/-- A directory stands there, be it closed. -/
def holdsDirectory (t : FileTree) (l : Location) : Bool :=
  (t.find? l).any Entry.isDirectory

/-- Why nothing is looked up at a location where no directory can be entered. -/
def refusal (t : FileTree) (l : Location) : IoError :=
  ((t.find? l).bind Entry.closing?).getD .notADirectory

/-- Nothing in the tree is refused. -/
def Accessible (t : FileTree) : Prop :=
  ∀ l e, t.find? l = some e → e.refusal? = none

def namesIn (t : FileTree) (l : Location) : List Name :=
  t.entries.filterMap fun x => match x.1 with
    | n :: m => if m = l then some n else none
    | [] => none

theorem mem_namesIn {t : FileTree} {l : Location} {n : Name} :
    n ∈ t.namesIn l ↔ ∃ e, t.find? (n :: l) = some e := by
  simp only [namesIn, List.mem_filterMap, find?_eq_some_iff]
  constructor
  · rintro ⟨⟨k, e⟩, hm, hk⟩
    cases k with
    | nil => simp at hk
    | cons a m =>
      simp only [Option.ite_none_right_eq_some, Option.some.injEq] at hk
      obtain ⟨rfl, rfl⟩ := hk
      exact ⟨e, hm⟩
  · rintro ⟨e, he⟩
    exact ⟨_, he, by simp⟩

/-- Puts an entry into an existing directory. Nothing changes when the name is
not valid, the directory is missing, or the entry would replace a directory. -/
def put (t : FileTree) (n : Name) (l : Location) (e : Entry) : FileTree :=
  if h : n.isValid = true ∧ (l, Entry.directory) ∈ t.entries ∧
      (n :: l, Entry.directory) ∉ t.entries then
    { entries := t.entries.filter (fun x => x.1 ≠ n :: l) ++ [(n :: l, e)]
      root_mem := by simp [t.root_mem]
      nodup := by
        rw [List.map_append, List.nodup_append]
        refine ⟨t.nodup.sublist (List.filter_sublist.map _), by simp, ?_⟩
        simp only [List.mem_map, List.mem_filter, decide_eq_true_eq, List.map_cons, List.map_nil,
          List.mem_cons, List.not_mem_nil, or_false]
        rintro _ ⟨x, hx, rfl⟩ _ rfl
        exact hx.2
      parent_mem := by
        intro a m f hf
        have keep : ∀ k, (k, Entry.directory) ∈ t.entries →
            (k, Entry.directory) ∈ t.entries.filter (fun x => x.1 ≠ n :: l) ++ [(n :: l, e)] := by
          intro k hk
          have : k ≠ n :: l := fun hkl => h.2.2 (hkl ▸ hk)
          simp [hk, this]
        simp only [List.mem_append, List.mem_filter, List.mem_cons, List.not_mem_nil,
          or_false] at hf
        rcases hf with hf | hf
        · exact keep _ (t.parent_mem _ _ _ hf.1)
        · simp only [Prod.mk.injEq, List.cons.injEq] at hf
          exact hf.1.2 ▸ keep _ h.2.1
      valid := by
        intro a m f hf
        simp only [List.mem_append, List.mem_filter, List.mem_cons, List.not_mem_nil,
          or_false] at hf
        rcases hf with hf | hf
        · exact t.valid _ _ _ hf.1
        · simp only [Prod.mk.injEq, List.cons.injEq] at hf
          exact hf.1.1 ▸ h.1 }
  else t

/-- Takes away the entry at a location other than the root, and all below it. -/
def erase (t : FileTree) (n : Name) (l : Location) : FileTree where
  entries := t.entries.filter fun x => !(n :: l).isSuffixOf x.1
  root_mem := by simp [t.root_mem]
  nodup := t.nodup.sublist (List.filter_sublist.map _)
  parent_mem := by
    intro a m e he
    simp only [List.mem_filter, Bool.not_eq_true', Bool.eq_false_iff, ne_eq,
      List.isSuffixOf_iff_suffix] at he ⊢
    exact ⟨t.parent_mem _ _ _ he.1, fun hs => he.2 (hs.trans (List.suffix_cons a m))⟩
  valid := fun _ _ _ h => t.valid _ _ _ (List.mem_filter.1 h).1

def below (t : FileTree) (l : Location) : List (Location × Entry) :=
  t.entries.filterMap fun x =>
    if l.isSuffixOf x.1 then some (x.1.take (x.1.length - l.length), x.2) else none

end FileTree
end InstallLocator
