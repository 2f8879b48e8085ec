import InstallLocator.FileTree.Resolve
import InstallLocator.Proofs.PathNames

/-!
# Walks, name by name

A walk over some names and then others is a walk from where the first names
lead, with fewer links left to follow. So the place of a child is found from
the place of its directory, and a path that leads somewhere leads through a
directory at every name before its last.
-/

set_option autoImplicit false

namespace InstallLocator

namespace FileTree

variable {t : FileTree} {last : LastName} {k j : Nat} {l m x : Location} {n : Name}

def onLink (t : FileTree) (last : LastName) :
    Nat → Location → List Name → Except IoError Location
  | 0 => fun _ _ => .error .tooManyLinks
  | k + 1 => t.follow last k

theorem follow_eq_walk (t : FileTree) (last : LastName) (k : Nat) :
    t.follow last k = t.walk last (t.onLink last k) := by
  cases k <;> rfl

theorem holdsDirectory_iff :
    t.holdsDirectory l = true ↔ ∃ e, t.find? l = some e ∧ e.isDirectory = true :=
  Option.any_eq_true _ _

theorem holdsDirectory_of_isDirectoryAt (h : t.isDirectoryAt l = true) :
    t.holdsDirectory l = true := by
  have he : t.find? l = some .directory := by simpa [isDirectoryAt] using h
  exact holdsDirectory_iff.2 ⟨_, he, rfl⟩

theorem isDirectoryAt_of_not_holdsDirectory (h : t.holdsDirectory l = false) :
    t.isDirectoryAt l = false := by
  cases hd : t.isDirectoryAt l with
  | false => rfl
  | true => cases (holdsDirectory_of_isDirectoryAt hd).symm.trans h

theorem refusal_of_not_holdsDirectory (h : t.holdsDirectory l = false) :
    t.refusal l = .notADirectory := by
  unfold holdsDirectory at h
  unfold refusal
  cases he : t.find? l with
  | none => rfl
  | some e =>
    rw [he] at h
    cases e <;> first | rfl | cases h

theorem refusal_of_closed {cause : IoError} (h : t.find? l = some (.closed cause)) :
    t.refusal l = cause := by
  rw [refusal, h]
  rfl

theorem follow_nil : t.follow last k l [] = .ok l := by
  rw [follow_eq_walk]
  rfl

theorem follow_slash (rest : List Name) :
    t.follow last k l (Path.finalSlash :: rest) =
      if t.holdsDirectory l then t.follow last k l rest else .error .notADirectory := by
  rw [follow_eq_walk, walk, if_pos rfl]

theorem follow_of_not_directory {rest : List Name} (hn : n ≠ Path.finalSlash)
    (hd : t.isDirectoryAt l = false) :
    t.follow last k l (n :: rest) = .error (t.refusal l) := by
  rw [follow_eq_walk, walk, if_neg hn, if_pos (by simp [hd])]

theorem isDirectoryAt_of_follow {rest : List Name} (hn : n ≠ Path.finalSlash)
    (h : t.follow last k l (n :: rest) = .ok x) : t.isDirectoryAt l = true := by
  cases hd : t.isDirectoryAt l with
  | true => rfl
  | false => cases (follow_of_not_directory hn hd).symm.trans h

theorem follow_current (rest : List Name) (hd : t.isDirectoryAt l = true) :
    t.follow last k l (Path.currentName :: rest) = t.follow last k l rest := by
  rw [follow_eq_walk, walk, if_neg (by decide), if_neg (by simpa using hd), if_pos rfl]

theorem follow_current_name (hn : n ≠ Path.finalSlash) (rest : List Name) :
    t.follow last k l (Path.currentName :: n :: rest) = t.follow last k l (n :: rest) := by
  by_cases hd : t.isDirectoryAt l = true
  · exact follow_current (n :: rest) hd
  · have hshut : t.isDirectoryAt l = false := by simpa using hd
    rw [follow_of_not_directory (by decide) hshut, follow_of_not_directory hn hshut]

theorem isValid_iff : n.isValid = true ↔
    n ≠ [] ∧ n ≠ Path.currentName ∧ n ≠ Path.parentName ∧ Path.slash ∉ n ∧ 0 ∉ n ∧
      n.length ≤ 255 := by
  simp [Name.isValid, and_assoc]

theorem follow_entry (hd : t.isDirectoryAt l = true) (hn : n.isValid = true) :
    t.follow last k l [n] = match t.find? (n :: l) with
      | none => if last = .created then .ok (n :: l) else .error .notFound
      | some (.link target) =>
        if last = .kept then .ok (n :: l)
        else t.onLink last k (if (Path.mk target).isAbsolute then [] else l) (Path.steps target)
      | some _ => .ok (n :: l) := by
  obtain ⟨hne, hcur, hpar, -, -, hlen⟩ := isValid_iff.1 hn
  have hslash : n ≠ Path.finalSlash := hne
  rw [follow_eq_walk, walk, if_neg hslash, if_neg (by simpa using hd), if_neg hcur, if_neg hpar,
    if_neg (by omega)]
  cases t.find? (n :: l) with
  | none => simp
  | some e => cases e <;> simp [walk]

theorem follow_entry_of_not_link {e : Entry} (hn : n.isValid = true)
    (hd : t.isDirectoryAt l = true) (he : t.find? (n :: l) = some e) (hl : e.isLink = false) :
    t.follow last k l [n] = .ok (n :: l) := by
  rw [follow_entry hd hn, he]
  cases e <;> first | rfl | cases hl

theorem find?_of_follow (hne : n ≠ Path.finalSlash) (hcur : n ≠ Path.currentName)
    (hpar : n ≠ Path.parentName) (h : t.follow .followed k l [n] = .ok x) :
    ∃ e, t.find? (n :: l) = some e ∧ (e.isLink = false → x = n :: l) := by
  have hd := isDirectoryAt_of_follow hne h
  rw [follow_eq_walk, walk, if_neg hne, if_neg (by simpa using hd), if_neg hcur,
    if_neg hpar] at h
  split at h
  · cases h
  cases hf : t.find? (n :: l) with
  | none => simp [hf] at h
  | some e =>
    refine ⟨e, rfl, ?_⟩
    intro hl
    cases e with
    | link target => cases hl
    | directory | closed cause | file content | sealed size cause | device =>
      simpa [hf, walk, eq_comm] using h

/-- What walks over more names give, by what the walk before them gave. -/
def Extends (t : FileTree) (more : LastName → List Name → Except IoError Location) :
    Except IoError Location → Prop
  | .ok m => ∃ j, ∀ last b, b ≠ [] → more last b = t.follow last j m b
  | .error e => ∀ last b, b ≠ [] → more last b = .error e

theorem Extends.congr {f g : LastName → List Name → Except IoError Location}
    {first : Except IoError Location} (h : Extends t f first)
    (hfg : ∀ last b, b ≠ [] → g last b = f last b) : Extends t g first := by
  cases first with
  | ok m =>
    obtain ⟨j, hj⟩ := h
    exact ⟨j, fun last b hb => (hfg last b hb).trans (hj last b hb)⟩
  | error e => exact fun last b hb => (hfg last b hb).trans (h last b hb)

theorem walk_extends
    (hlink : ∀ l names, Extends t (fun last b => t.onLink last k l (names ++ b))
      (t.onLink .followed k l names)) (a : List Name) (l : Location) :
    Extends t (fun last b => t.walk last (t.onLink last k) l (a ++ b))
      (t.walk .followed (t.onLink .followed k) l a) := by
  induction a generalizing l with
  | nil => exact ⟨k, fun last b _ => by rw [follow_eq_walk]; rfl⟩
  | cons n rest ih =>
    have hnot : ∀ b : List Name, b ≠ [] → ¬(rest ++ b = []) := fun b hb h =>
      hb (List.append_eq_nil_iff.1 h).2
    simp only [List.cons_append, walk]
    split
    · split
      · exact ih l
      · exact fun _ _ _ => rfl
    split
    · exact fun _ _ _ => rfl
    split
    · exact ih l
    split
    · exact ih l.tail
    split
    · exact fun _ _ _ => rfl
    split
    -- Names follow on the left and all is followed on the right, so neither walk is at
    -- a last name that is kept or yet to be made.
    · rw [if_neg fun h : rest = [] ∧ LastName.followed = .created => by cases h.2]
      exact fun _ b hb => if_neg fun h => hnot b hb h.1
    · rename_i target _
      rw [if_neg fun h : rest = [] ∧ LastName.followed = .kept => by cases h.2]
      refine (hlink _ (Path.steps target ++ rest)).congr fun last b hb => ?_
      rw [if_neg fun h => hnot b hb h.1, List.append_assoc]
    · exact ih (n :: l)

/-- A walk over some names goes on from where they lead, with as many links
left whatever comes then. -/
theorem follow_extends (t : FileTree) (k : Nat) (l : Location) (a : List Name) :
    Extends t (fun last b => t.follow last k l (a ++ b)) (t.follow .followed k l a) := by
  induction k generalizing l a with
  | zero =>
    have hlink : ∀ l names, Extends t (fun last b => t.onLink last 0 l (names ++ b))
        (t.onLink .followed 0 l names) := fun _ _ _ _ _ => rfl
    exact walk_extends hlink a l
  | succ k ih =>
    have hlink : ∀ l names, Extends t (fun last b => t.onLink last (k + 1) l (names ++ b))
        (t.onLink .followed (k + 1) l names) := ih
    exact walk_extends hlink a l

theorem follow_append {a : List Name} (h : t.follow .followed k l a = .ok m) :
    ∃ j, ∀ last b, b ≠ [] → t.follow last k l (a ++ b) = t.follow last j m b := by
  have he := follow_extends t k l a
  rwa [h] at he

theorem follow_append_error {a : List Name} {e : IoError}
    (h : t.follow .followed k l a = .error e) {b : List Name} (hb : b ≠ []) :
    t.follow last k l (a ++ b) = .error e := by
  have he := follow_extends t k l a
  rw [h] at he
  exact he last b hb

theorem exists_of_follow_append {a b : List Name} (hb : b ≠ [])
    (h : t.follow last k l (a ++ b) = .ok x) :
    ∃ m j, t.follow .followed k l a = .ok m ∧ t.follow last j m b = .ok x := by
  cases ha : t.follow .followed k l a with
  | ok m =>
    obtain ⟨j, hj⟩ := follow_append ha
    exact ⟨m, j, rfl, (hj last b hb).symm.trans h⟩
  | error e => cases (follow_append_error ha hb).symm.trans h

theorem eq_of_follow_current (h : t.follow last k l [Path.currentName] = .ok x) : x = l := by
  rw [follow_current [] (isDirectoryAt_of_follow (by decide) h), follow_nil] at h
  exact (Except.ok.inj h).symm

theorem eq_of_follow_slash (h : t.follow last k l [Path.finalSlash] = .ok x) : x = l := by
  rw [follow_slash, follow_nil] at h
  split at h
  · exact (Except.ok.inj h).symm
  · cases h

theorem follow_replicate_current (i : Nat) (hn : n ≠ Path.finalSlash) :
    t.follow last k l (List.replicate i Path.currentName ++ [n]) = t.follow last k l [n] := by
  induction i with
  | zero => rfl
  | succ i ih =>
    rw [List.replicate_succ, List.cons_append]
    cases i with
    | zero => exact follow_current_name hn []
    | succ i =>
      rw [← ih, List.replicate_succ, List.cons_append]
      exact follow_current_name (by decide) _

theorem follow_append_current (i : Nat) (a : List Name) (hn : n ≠ Path.finalSlash) :
    t.follow last k l (a ++ List.replicate i Path.currentName ++ [n]) =
      t.follow last k l (a ++ [n]) := by
  rw [List.append_assoc]
  cases ha : t.follow .followed k l a with
  | ok m =>
    obtain ⟨j, hj⟩ := follow_append ha
    rw [hj last _ (by simp), hj last [n] (by simp), follow_replicate_current i hn]
  | error e => rw [follow_append_error ha (by simp), follow_append_error ha (by simp)]

theorem follow_of_append_current {i : Nat} {a : List Name}
    (h : t.follow .followed k l (a ++ List.replicate i Path.currentName) = .ok x) :
    t.follow .followed k l a = .ok x := by
  cases i with
  | zero => simpa using h
  | succ i =>
    have hne : List.replicate (i + 1) Path.currentName ≠ [] := by simp
    obtain ⟨m, j, hm, hx⟩ := exists_of_follow_append hne h
    rw [List.replicate_succ', follow_replicate_current i (by decide)] at hx
    rw [hm, eq_of_follow_current hx]

end FileTree

/-- A path that can be walked at all. -/
structure Path.Openable (p : Path) : Prop where
  no_nul : 0 ∉ p.bytes
  ne_nil : p.bytes ≠ []
  length_le : p.bytes.length ≤ FileTree.maxPathLength

def Path.start (p : Path) (here : Location) : Location :=
  if p.isAbsolute then [] else here

theorem Path.Openable.of_start {p q : Path} (hq : q.Openable) (hp : p.bytes ≠ [])
    (h : p.bytes <+: q.bytes) : p.Openable :=
  ⟨fun h0 => hq.no_nul (h.subset h0), hp, Nat.le_trans h.length_le hq.length_le⟩

namespace FileTree

variable {t : FileTree} {here l m x : Location} {last : LastName} {p : Path} {n : Name}

theorem resolve_eq_ok_iff : t.resolve here last p = .ok l ↔
    p.Openable ∧ t.follow last maxLinks (p.start here) (Path.steps p.bytes) = .ok l := by
  unfold resolve
  by_cases h0 : (0 : UInt8) ∈ p.bytes
  · simp only [List.contains_iff_mem, h0, if_true, reduceCtorEq, false_iff]
    exact fun h => h.1.no_nul h0
  by_cases hne : p.bytes = []
  · exact ⟨fun h => by simp [hne] at h, fun h => absurd hne h.1.ne_nil⟩
  by_cases hl : maxPathLength < p.bytes.length
  · simp only [List.contains_iff_mem, h0, if_false, hne, hl, if_true, reduceCtorEq, false_iff]
    exact fun h => absurd h.1.length_le (Nat.not_le.2 hl)
  · simp only [List.contains_iff_mem, h0, if_false, hne, hl]
    exact ⟨fun h => ⟨⟨h0, hne, Nat.not_lt.1 hl⟩, h⟩, fun h => h.2⟩

theorem follow_names_of_resolve (h : t.resolve here .followed p = .ok l) :
    t.follow .followed maxLinks (p.start here) p.names = .ok l := by
  have hs := (resolve_eq_ok_iff.1 h).2
  rw [Path.steps_eq_names] at hs
  split at hs
  · obtain ⟨m, j, hm, hx⟩ := exists_of_follow_append (by simp) hs
    rw [hm, eq_of_follow_slash hx]
  · simpa using hs

theorem resolve_of_follow_names (ho : p.Openable) (hd : t.holdsDirectory l = true)
    (h : t.follow .followed maxLinks (p.start here) p.names = .ok l) :
    t.resolve here .followed p = .ok l := by
  refine resolve_eq_ok_iff.2 ⟨ho, ?_⟩
  rw [Path.steps_eq_names]
  split
  · obtain ⟨j, hj⟩ := follow_append h
    rw [hj _ _ (by simp), follow_slash, if_pos hd, follow_nil]
  · simpa using h

theorem start_join (hp : p.bytes ≠ []) (hn : Path.slash ∉ n) :
    (p.join ⟨n⟩).start here = p.start here := by
  simp only [Path.start, Path.isAbsolute_join hp hn]

theorem resolve_join (h : t.resolve here .followed p = .ok m) (hn : Path.slash ∉ n)
    (hne : n ≠ []) : ∃ j, ∀ last x, t.resolve here last (p.join ⟨n⟩) = .ok x ↔
      (p.join ⟨n⟩).Openable ∧ t.follow last j m [n] = .ok x := by
  have hp := (resolve_eq_ok_iff.1 h).1.ne_nil
  obtain ⟨j, hj⟩ := follow_append (follow_names_of_resolve h)
  refine ⟨j, fun last x => ?_⟩
  rw [resolve_eq_ok_iff, Path.steps_join hp hn hne, start_join hp hn, hj last _ (by simp)]

theorem resolve_of_resolve_join (h : t.resolve here last (p.join ⟨n⟩) = .ok x)
    (hp : p.bytes ≠ []) (hn : Path.slash ∉ n) (hne : n ≠ []) :
    ∃ m, t.resolve here .followed p = .ok m ∧ t.isDirectoryAt m = true := by
  obtain ⟨ho, hf⟩ := resolve_eq_ok_iff.1 h
  rw [Path.steps_join hp hn hne, start_join hp hn] at hf
  obtain ⟨m, j, hm, hx⟩ := exists_of_follow_append (by simp) hf
  have hd := isDirectoryAt_of_follow hne hx
  have hopen := ho.of_start hp (Path.isStart_join p hn)
  exact ⟨m, resolve_of_follow_names hopen (holdsDirectory_of_isDirectoryAt hd) hm, hd⟩

end FileTree
end InstallLocator
