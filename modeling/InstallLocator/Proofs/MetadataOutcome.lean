import InstallLocator.Proofs.IdPattern
import InstallLocator.Proofs.Identified
import InstallLocator.Proofs.LenientIdentity

/-!
# What comes of looking for the metadata of a client

A path that leads nowhere does so for one of five reasons or because something on
the way is closed, and only one of these counts as a missing file. What is found
decides the rest: its kind, its size, whether it can be read, and the id that its
text names. Every fault names the metadata file itself.
-/

set_option autoImplicit false

namespace InstallLocator

namespace FileTree

/-- What a walk may fail with where nothing is closed. -/
def walkErrors : List IoError := [.notFound, .notADirectory, .nameTooLong, .tooManyLinks]

/-- What a walk may fail with. -/
def Hinders (t : FileTree) (e : IoError) : Prop :=
  e ∈ walkErrors ∨ ∃ l, t.find? l = some (.closed e)

variable {t : FileTree} {last : LastName} {here l : Location} {names : List Name} {e : IoError}

theorem hinders_refusal (t : FileTree) (l : Location) : t.Hinders (t.refusal l) := by
  by_cases hclosed : ∃ cause, t.find? l = some (.closed cause)
  · obtain ⟨cause, hl⟩ := hclosed
    rw [refusal_of_closed hl]
    exact Or.inr ⟨l, hl⟩
  · have hother : t.refusal l = .notADirectory := by
      unfold refusal
      cases hl : t.find? l with
      | none => rfl
      | some e =>
        cases e with
        | closed cause => exact absurd ⟨cause, hl⟩ hclosed
        | _ => rfl
    rw [hother]
    exact Or.inl (by decide)

theorem hinders_of_walk {onLink : Location → List Name → Except IoError Location}
    (hlink : ∀ l names, onLink l names = .error e → t.Hinders e)
    (h : t.walk last onLink l names = .error e) : t.Hinders e := by
  induction names generalizing l with
  | nil => cases h
  | cons n rest ih =>
    rw [walk] at h
    split at h
    · split at h
      · exact ih h
      · cases h
        exact Or.inl (by decide)
    split at h
    · cases h
      exact t.hinders_refusal l
    split at h
    · exact ih h
    split at h
    · exact ih h
    split at h
    · cases h
      exact Or.inl (by decide)
    split at h
    · split at h <;> cases h
      exact Or.inl (by decide)
    · split at h
      · cases h
      · exact hlink _ _ h
    · exact ih h

theorem hinders_of_follow {k : Nat} (h : t.follow last k l names = .error e) : t.Hinders e := by
  induction k generalizing l names with
  | zero =>
    refine hinders_of_walk (fun _ _ hl => ?_) h
    cases hl
    exact Or.inl (by decide)
  | succ k ih => exact hinders_of_walk (fun _ _ hl => ih hl) h

theorem resolve_nul {p : Path} (hp : 0 ∈ p.bytes) :
    t.resolve here last p = .error .nulInPath :=
  if_pos (List.contains_iff_mem.2 hp)

theorem hinders_of_resolve {p : Path} (hp : 0 ∉ p.bytes)
    (h : t.resolve here last p = .error e) : t.Hinders e := by
  rw [resolve, if_neg (by simpa using hp)] at h
  split at h
  · cases h
    exact Or.inl (by decide)
  split at h
  · cases h
    exact Or.inl (by decide)
  · exact hinders_of_follow h

theorem resolve_of_openable {p : Path} (ho : p.Openable) : t.resolve here last p =
    t.follow last maxLinks (p.start here) (Path.steps p.bytes) := by
  rw [resolve, if_neg (by simpa using ho.no_nul), if_neg ho.ne_nil,
    if_neg (Nat.not_lt.2 ho.length_le)]
  rfl

section

variable {p : Path} {n : Name} (hp : p.bytes ≠ []) (hn : Path.slash ∉ n) (hne : n ≠ [])
  (ho : (p.join ⟨n⟩).Openable)

include hp hn hne ho

theorem resolve_join_eq : t.resolve here last (p.join ⟨n⟩) =
    t.follow last maxLinks (p.start here) (p.names ++ [n]) := by
  rw [resolve_of_openable ho, start_join hp hn, Path.steps_join hp hn hne]

theorem resolve_join_of_not_directory (h : t.resolve here .followed p = .ok l)
    (hd : t.isDirectoryAt l = false) :
    t.resolve here last (p.join ⟨n⟩) = .error (t.refusal l) := by
  obtain ⟨j, hj⟩ := follow_append (follow_names_of_resolve h)
  rw [resolve_join_eq hp hn hne ho, hj _ _ (by simp), follow_of_not_directory hne hd]

theorem resolve_join_of_error (h : t.resolve here .followed p = .error e) :
    t.resolve here last (p.join ⟨n⟩) = .error e := by
  have hopen := ho.of_start hp (Path.isStart_join p hn)
  rw [resolve_of_openable hopen, Path.steps_eq_names] at h
  rw [resolve_join_eq hp hn hne ho]
  cases hf : t.follow .followed maxLinks (p.start here) p.names with
  | error f =>
    rw [follow_append_error hf (by simp)]
    split at h
    · rwa [follow_append_error hf (by simp)] at h
    · rwa [List.append_nil, hf] at h
  | ok m =>
    -- The names lead somewhere, so it is the slash at the end that asks for a directory.
    obtain ⟨j, hj⟩ := follow_append hf
    split at h
    · rw [hj _ _ (by simp), follow_slash, follow_nil] at h
      cases hd : t.holdsDirectory m with
      | true =>
        rw [hd] at h
        cases h
      | false =>
        rw [hd] at h
        cases h
        have hshut := isDirectoryAt_of_not_holdsDirectory hd
        rw [hj _ _ (by simp), follow_of_not_directory hne hshut, refusal_of_not_holdsDirectory hd]
    · rw [List.append_nil, hf] at h
      cases h

end

end FileTree

namespace Host

variable {h : Host} {p : Path} {n : Name} {e : IoError}

theorem stat_of_resolve (hr : h.tree.resolve h.here .followed p = .error e) :
    h.stat p = .error e := by
  rw [stat, hr]
  rfl

theorem stat_eq_error_iff : h.stat p = .error e ↔
    h.tree.resolve h.here .followed p = .error e ∨ ∃ l, e = .notFound ∧
      h.tree.resolve h.here .followed p = .ok l ∧ h.tree.find? l = none := by
  simp only [stat, entryAt, bind, Except.bind]
  cases h.tree.resolve h.here .followed p with
  | error f => simp
  | ok l => cases hl : h.tree.find? l <;> simp [hl, eq_comm]

/-- The reasons for which nothing is found at a path. -/
theorem hinders_of_stat (hp : 0 ∉ p.bytes) (hs : h.stat p = .error e) : h.tree.Hinders e := by
  obtain hr | ⟨l, rfl, -⟩ := stat_eq_error_iff.1 hs
  · exact FileTree.hinders_of_resolve hp hr
  · exact Or.inl (by decide)

end Host

namespace Region

theorem ofGameId?_eq_some_iff_of_trimmed {id : String} {s : Region} (hid : Trimmed id) :
    ofGameId? id = some s ↔ sameIgnoringCase s.gameId id = true := by
  rw [ofGameId?_eq_some_iff, trim_of_trimmed hid]

theorem ofGameId?_eq_none_iff_of_trimmed {id : String} (hid : Trimmed id) :
    ofGameId? id = none ↔ ∀ s : Region, sameIgnoringCase s.gameId id = false := by
  rw [ofGameId?_eq_none_iff, trim_of_trimmed hid]

end Region

namespace GameInfo

def Error.path : Error → Path
  | missing p => p
  | unreadable p _ => p
  | tooLarge p _ _ => p
  | noId p => p
  | unknownId p _ => p

/-- A regular file of this size stands there. -/
def HasSize (h : Host) (p : Path) (size : Nat) : Prop :=
  ∃ e, h.stat p = .ok e ∧ e.size? = some size

/-- A file stands there that is small enough to be read, it can be read, and this
is the id that its text names. -/
def Reads (h : Host) (p : Path) (id : Option String) : Prop :=
  (∃ size ≤ 1048576, HasSize h p size) ∧
    ∃ content, h.read p = .ok content ∧ NamesId (Utf8.decodeLossy content) id

/-- What looking for metadata at a path comes to. -/
inductive Outcome (h : Host) (p : Path) : Except Error Region → Prop
  | absent (nothing : h.stat p = .error .notFound) : Outcome h p (.error (.missing p))
  | noFile {e : Entry} (found : h.stat p = .ok e) (other : e.isFile = false) :
    Outcome h p (.error (.missing p))
  | hidden {cause : IoError} (refused : h.stat p = .error cause) (other : cause ≠ .notFound) :
    Outcome h p (.error (.unreadable p cause))
  | tooLarge {size : Nat} (file : HasSize h p size) (large : 1048576 < size) :
    Outcome h p (.error (.tooLarge p size 1048576))
  | sealed {size : Nat} {cause : IoError} (file : HasSize h p size) (small : size ≤ 1048576)
    (refused : h.read p = .error cause) : Outcome h p (.error (.unreadable p cause))
  | noId (reads : Reads h p none) : Outcome h p (.error (.noId p))
  | unknownId {id : String} (reads : Reads h p (some id))
    (foreign : ∀ s : Region, sameIgnoringCase s.gameId id = false) :
    Outcome h p (.error (.unknownId p id))
  | region {id : String} {s : Region} (reads : Reads h p (some id))
    (named : sameIgnoringCase s.gameId id = true) : Outcome h p (.ok s)

variable {h : Host} {directory p : Path} {id : String} {size : Nat} {cause : IoError}
  {r : Except Error Region}

theorem namesId_iff {cs : List Char} {id : Option String} :
    NamesId cs id ↔ (idOf? cs).map String.ofList = id := by
  have hread := namesId_extractId (String.ofList cs)
  rw [extractId, String.toList_ofList] at hread
  refine ⟨fun hn => ?_, fun hid => hid ▸ hread⟩
  have hn : NamesId (String.ofList cs).toList id := by rwa [String.toList_ofList]
  rw [← extractId_of_namesId hn, extractId, String.toList_ofList]

theorem NamesId.solid {cs : List Char} (hn : NamesId cs (some id)) : id ≠ "" ∧ Trimmed id := by
  obtain _ | _ | ⟨first, solid⟩ := hn
  constructor
  · rwa [Ne, String.ofList_eq_empty_iff]
  · simpa [trim] using trim_trimmed (String.ofList _)

theorem Reads.solid (hr : Reads h p (some id)) : id ≠ "" ∧ Trimmed id := by
  obtain ⟨-, _, _, hn⟩ := hr
  exact hn.solid

theorem identify_of_error {e : Error} (hr : readId h (file directory) = .error e) :
    identify h directory = ⟨.error e, []⟩ := by
  rw [identify, hr]

theorem identify_value_of_ok (hr : readId h (file directory) = .ok id) :
    (identify h directory).value = regionOf (file directory) id := by
  rw [identify, hr]

theorem checkFile_of_refused (hs : h.stat p = .error cause) (hc : cause ≠ .notFound) :
    checkFile h p = .error (.unreadable p cause) := by
  rw [checkFile, hs]
  split <;> simp_all

theorem checkFile_of_noFile {e : Entry} (hs : h.stat p = .ok e) (he : e.isFile = false) :
    checkFile h p = .error (.missing p) := by
  have hsize : e.size? = none := by simpa [Entry.isFile] using he
  simp only [checkFile, hs, hsize]

theorem checkFile_of_large (hf : HasSize h p size) (hl : 1048576 < size) :
    checkFile h p = .error (.tooLarge p size 1048576) := by
  obtain ⟨e, hs, hsize⟩ := hf
  simp only [checkFile, hs, hsize]
  exact if_pos hl

theorem checkFile_of_small (hf : HasSize h p size) (hl : size ≤ 1048576) :
    checkFile h p = .ok () := by
  obtain ⟨e, hs, hsize⟩ := hf
  exact checkFile_eq_ok_iff.2 ⟨e, size, hs, hsize, hl⟩

theorem readId_of_sealed (hf : HasSize h p size) (hl : size ≤ 1048576)
    (hr : h.read p = .error cause) : readId h p = .error (.unreadable p cause) := by
  rw [readId_of_checked (checkFile_of_small hf hl), hr]

theorem readId_of_reads_none (hr : Reads h p none) : readId h p = .error (.noId p) := by
  obtain ⟨⟨size, hl, hf⟩, content, hread, hn⟩ := hr
  rw [readId_of_checked (checkFile_of_small hf hl), hread]
  simp only [namesId_iff.1 hn]

theorem readId_of_reads_some (hr : Reads h p (some id)) : readId h p = .ok id := by
  obtain ⟨⟨size, hl, hf⟩, content, hread, hn⟩ := hr
  rw [readId_of_checked (checkFile_of_small hf hl), hread]
  simp only [namesId_iff.1 hn]

theorem Outcome.identify_eq (ho : Outcome h (file directory) r) :
    (identify h directory).value = r := by
  cases ho with
  | absent nothing =>
    have hc : checkFile h (file directory) = .error (.missing (file directory)) := by
      rw [checkFile, nothing]
    rw [identify_of_error (readId_of_unchecked hc)]
  | noFile found other =>
    rw [identify_of_error (readId_of_unchecked (checkFile_of_noFile found other))]
  | hidden refused other =>
    rw [identify_of_error (readId_of_unchecked (checkFile_of_refused refused other))]
  | tooLarge file large =>
    rw [identify_of_error (readId_of_unchecked (checkFile_of_large file large))]
  | sealed file small refused => rw [identify_of_error (readId_of_sealed file small refused)]
  | noId reads => rw [identify_of_error (readId_of_reads_none reads)]
  | unknownId reads foreign =>
    rw [identify_value_of_ok (readId_of_reads_some reads), regionOf,
      (Region.ofGameId?_eq_none_iff_of_trimmed reads.solid.2).2 foreign]
  | region reads named =>
    rw [identify_value_of_ok (readId_of_reads_some reads), regionOf,
      (Region.ofGameId?_eq_some_iff_of_trimmed reads.solid.2).2 named]

theorem exists_outcome_of_read {content : Bytes} (hf : HasSize h p size) (hl : size ≤ 1048576)
    (hread : h.read p = .ok content) : ∃ r, Outcome h p r := by
  have hn : NamesId (Utf8.decodeLossy content) _ := namesId_iff.2 rfl
  have hr : Reads h p _ := ⟨⟨size, hl, hf⟩, content, hread, hn⟩
  cases hid : (idOf? (Utf8.decodeLossy content)).map String.ofList with
  | none => exact ⟨_, .noId (hid ▸ hr)⟩
  | some id =>
    rw [hid] at hr
    cases ho : Region.ofGameId? id with
    | none =>
      exact ⟨_, .unknownId hr ((Region.ofGameId?_eq_none_iff_of_trimmed hr.solid.2).1 ho)⟩
    | some s =>
      exact ⟨_, .region hr ((Region.ofGameId?_eq_some_iff_of_trimmed hr.solid.2).1 ho)⟩

theorem exists_outcome (h : Host) (p : Path) : ∃ r, Outcome h p r := by
  cases hs : h.stat p with
  | error cause =>
    by_cases hc : cause = .notFound
    · exact ⟨_, .absent (hc ▸ hs)⟩
    · exact ⟨_, .hidden hs hc⟩
  | ok e =>
    cases hz : e.size? with
    | none => exact ⟨_, .noFile hs (by simp [Entry.isFile, hz])⟩
    | some size =>
      have hf : HasSize h p size := ⟨e, hs, hz⟩
      obtain hl | hl := Nat.lt_or_ge 1048576 size
      · exact ⟨_, .tooLarge hf hl⟩
      cases hread : h.read p with
      | error cause => exact ⟨_, .sealed hf hl hread⟩
      | ok content => exact exists_outcome_of_read hf hl hread

theorem identify_eq_iff : (identify h directory).value = r ↔ Outcome h (file directory) r := by
  obtain ⟨q, hq⟩ := exists_outcome h (file directory)
  exact ⟨fun hr => hr ▸ hq.identify_eq ▸ hq, Outcome.identify_eq⟩

theorem unreadable_iff : (identify h directory).value = .error (.unreadable p cause) ↔
    p = file directory ∧ ((h.stat p = .error cause ∧ cause ≠ .notFound) ∨
      (∃ size ≤ 1048576, HasSize h p size) ∧ h.read p = .error cause) := by
  rw [identify_eq_iff]
  constructor
  · intro ho
    cases ho with
    | hidden refused other => exact ⟨rfl, Or.inl ⟨refused, other⟩⟩
    | sealed file small refused => exact ⟨rfl, Or.inr ⟨⟨_, small, file⟩, refused⟩⟩
  · rintro ⟨rfl, ⟨refused, other⟩ | ⟨⟨size, small, file⟩, refused⟩⟩
    · exact .hidden refused other
    · exact .sealed file small refused

theorem HasSize.read_error (hf : HasSize h p size) (hr : h.read p = .error cause) :
    ∃ l e, h.tree.find? l = some e ∧ e.refusal? = some cause := by
  obtain ⟨e, hs, hz⟩ := hf
  obtain ⟨l, -, hl⟩ := Host.stat_eq_ok_iff.1 hs
  rw [Host.read_of_stat hs] at hr
  refine ⟨l, e, hl, ?_⟩
  cases e <;> cases hz <;> cases hr
  rfl

theorem file_bytes (directory : Path) :
    (file directory).bytes = directory.stem ++ Utf8.encode Constants.gameInfoFile.toList :=
  directory.join_bytes (by decide)

theorem mem_nul_file_iff : 0 ∈ (file directory).bytes ↔ 0 ∈ directory.bytes := by
  have hname : 0 ∉ Utf8.encode Constants.gameInfoFile.toList := by decide
  have hstem : 0 ∈ directory.stem ↔ 0 ∈ directory.bytes := by
    unfold Path.stem
    split <;> simp [Path.slash]
  rw [file_bytes, List.mem_append, hstem, or_iff_left hname]

theorem stat_file_of_not_open {l : Location}
    (hl : h.tree.resolve h.here .followed directory = .ok l)
    (hd : h.tree.isDirectoryAt l = false) (ho : (file directory).Openable) :
    h.stat (file directory) = .error (h.tree.refusal l) := by
  have hne : directory.bytes ≠ [] := (FileTree.resolve_eq_ok_iff.1 hl).1.ne_nil
  exact Host.stat_of_resolve
    (FileTree.resolve_join_of_not_directory hne (by decide) (by decide) ho hl hd)

theorem stat_file_of_not_directory {e : Entry} (hs : h.stat directory = .ok e)
    (he : e.isDirectory = false) (ho : (file directory).Openable) :
    h.stat (file directory) = .error .notADirectory := by
  obtain ⟨l, hl, hfind⟩ := Host.stat_eq_ok_iff.1 hs
  have hd : h.tree.holdsDirectory l = false := by
    rw [FileTree.holdsDirectory, hfind]
    exact he
  rw [stat_file_of_not_open hl (FileTree.isDirectoryAt_of_not_holdsDirectory hd) ho,
    FileTree.refusal_of_not_holdsDirectory hd]

theorem stat_file_of_closed (hs : h.stat directory = .ok (.closed cause))
    (ho : (file directory).Openable) : h.stat (file directory) = .error cause := by
  obtain ⟨l, hl, hfind⟩ := Host.stat_eq_ok_iff.1 hs
  have hd : h.tree.isDirectoryAt l = false := by
    rw [FileTree.isDirectoryAt, hfind]
    rfl
  rw [stat_file_of_not_open hl hd ho, FileTree.refusal_of_closed hfind]

theorem stat_file_of_refused (hs : h.stat directory = .error cause) (hc : cause ≠ .notFound)
    (ho : (file directory).Openable) : h.stat (file directory) = .error cause := by
  obtain hr | ⟨l, he, -⟩ := Host.stat_eq_error_iff.1 hs
  · have hne : directory.bytes ≠ [] := by
      intro h0
      rw [FileTree.resolve, if_neg (by simp [h0]), if_pos h0] at hr
      exact hc (Except.error.inj hr).symm
    exact Host.stat_of_resolve
      (FileTree.resolve_join_of_error hne (by decide) (by decide) ho hr)
  · exact absurd he hc

theorem stat_file_of_nul (hn : 0 ∈ directory.bytes) :
    h.stat (file directory) = .error .nulInPath :=
  Host.stat_of_resolve (FileTree.resolve_nul (mem_nul_file_iff.2 hn))

section

variable (open_ : h.tree.Accessible)

include open_

theorem not_closed (l : Location) : h.tree.find? l ≠ some (.closed cause) := by
  intro hl
  cases open_ l _ hl

theorem unreadable_iff_of_accessible :
    (identify h directory).value = .error (.unreadable (file directory) cause) ↔
      h.stat (file directory) = .error cause ∧ cause ≠ .notFound := by
  rw [unreadable_iff]
  constructor
  · rintro ⟨-, hstat | ⟨⟨size, -, hf⟩, hr⟩⟩
    · exact hstat
    · obtain ⟨l, e, hl, he⟩ := hf.read_error hr
      cases he.symm.trans (open_ l e hl)
  · exact fun hstat => ⟨rfl, Or.inl hstat⟩

theorem stat_error_mem {p : Path} (hs : h.stat p = .error cause) :
    0 ∈ p.bytes ∧ cause = .nulInPath ∨ 0 ∉ p.bytes ∧ cause ∈ FileTree.walkErrors := by
  by_cases hp : 0 ∈ p.bytes
  · have hnul := Host.stat_of_resolve (h := h) (FileTree.resolve_nul hp)
    exact Or.inl ⟨hp, Except.error.inj (hs.symm.trans hnul)⟩
  · obtain hmem | ⟨l, hl⟩ := Host.hinders_of_stat hp hs
    · exact Or.inr ⟨hp, hmem⟩
    · exact absurd hl (not_closed open_ l)

end

def hostWithMetadata (e : Entry) : Host where
  tree := (FileTree.empty.put [0x63] [] .directory).put
    (Utf8.encode Constants.gameInfoFile.toList) [[0x63]] e
  here := []
  environment := ⟨none, none, none, none⟩

theorem stat_hostWithMetadata (size : Nat) (b : UInt8) :
    (hostWithMetadata (.file (List.replicate size b))).stat (file (.ofText "/c")) =
      .ok (.file (List.replicate size b)) :=
  rfl

theorem accessible_hostWithMetadata (content : Bytes) :
    (hostWithMetadata (.file content)).tree.Accessible := by
  intro l e hl
  have hmem := FileTree.find?_eq_some_iff.1 hl
  have hentries : (hostWithMetadata (.file content)).tree.entries =
    [([], .directory), ([[0x63]], .directory),
      ([Utf8.encode Constants.gameInfoFile.toList, [0x63]], .file content)] := rfl
  rw [hentries] at hmem
  simp only [List.mem_cons, Prod.mk.injEq, List.not_mem_nil, or_false] at hmem
  obtain ⟨-, rfl⟩ | ⟨-, rfl⟩ | ⟨-, rfl⟩ := hmem <;> rfl

def hostWithClosed (cause : IoError) : Host where
  tree := FileTree.empty.put [0x63] [] (.closed cause)
  here := []
  environment := ⟨none, none, none, none⟩

end GameInfo
end InstallLocator
