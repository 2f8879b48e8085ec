import InstallLocator.Proofs.Identified
import InstallLocator.Proofs.Offers
import InstallLocator.Proofs.WalkOrder
import Mathlib.Data.List.Basic

/-!
# The clients below a search root

A search root offers exactly the client directories in reach of the walk, each
once, in the order of their metadata files. Several roots offer their clients
one root after the other, and a root that is missing offers none.
-/

set_option autoImplicit false

namespace InstallLocator

namespace Strategy

def gameInfoName : Name := Utf8.encode Constants.gameInfoFile.toList

/-- A client with the names that lead to its directory from a search root. -/
structure Sighting where
  dirs : List Name
  region : Region

namespace Sighting

def directory (root : Path) (c : Sighting) : Path := root.descendant c.dirs

/-- The path it is reported under: no slash or `.` is left at the end of a root. -/
def path (root : Path) (c : Sighting) : Path := (c.directory root).trimmed

def candidate (root : Path) (c : Sighting) : Candidate := ⟨c.region, c.path root, searchRootName⟩

def names (c : Sighting) : List Name := c.dirs ++ [gameInfoName]

/-- It is there, in reach of a search: no link leads to the directory, the metadata
file is no link either, and the region is read from it. -/
structure Real (h : Host) (root : Path) (depth : Nat) (c : Sighting) : Prop where
  reached : Search.Descends h root c.dirs (c.directory root)
  near : c.dirs.length ≤ depth
  metadata : ∃ entries content, h.list (c.directory root) = .ok entries ∧
    (gameInfoName, .file content) ∈ entries
  identified : (GameInfo.identify h (c.path root)).value = .ok c.region

end Sighting

/-- The client that an entry below a root is the metadata file of. -/
def sighting? (h : Host) (root : Path) (v : List Name × Entry) : Option Sighting :=
  if v.2.isFile = true ∧ v.1.getLast? = some gameInfoName then
    match (GameInfo.identify h (root.descendant v.1.dropLast).trimmed).value with
    | .ok s => some ⟨v.1.dropLast, s⟩
    | .error _ => none
  else none

def sightings (h : Host) (depth : Nat) (root : Path) : List Sighting :=
  (Search.visits h (depth + 1) root).filterMap (sighting? h root)

variable {h : Host} {root p : Path} {depth : Nat} {dirs : List Name} {n : Name} {e : Entry}
  {c : Sighting}

theorem sighting?_concat_eq_some_iff : sighting? h root (dirs ++ [n], e) = some c ↔
    e.isFile = true ∧ n = gameInfoName ∧ c.dirs = dirs ∧
      (GameInfo.identify h (c.path root)).value = .ok c.region := by
  obtain ⟨ds, s⟩ := c
  simp only [sighting?, List.getLast?_concat, List.dropLast_concat, Option.some.injEq,
    Option.ite_none_right_eq_some, Sighting.path, Sighting.directory, and_assoc]
  refine and_congr_right fun _ => and_congr_right fun _ => ?_
  cases hi : (GameInfo.identify h (root.descendant dirs).trimmed).value with
  | ok r =>
    simp only [Option.some.injEq, Sighting.mk.injEq]
    constructor
    · rintro ⟨rfl, rfl⟩
      exact ⟨rfl, hi⟩
    · rintro ⟨rfl, hs⟩
      exact ⟨rfl, Except.ok.inj (hi.symm.trans hs)⟩
  | error e =>
    constructor
    · rintro ⟨⟩
    · rintro ⟨rfl, hs⟩
      cases hi.symm.trans hs

theorem exists_concat_of_sighting? {v : List Name × Entry} (hc : sighting? h root v = some c) :
    v.1 = c.names := by
  obtain ⟨names, e⟩ := v
  rcases List.eq_nil_or_concat names with rfl | ⟨dirs, n, rfl⟩
  · simp [sighting?] at hc
  · rw [List.concat_eq_append] at hc ⊢
    obtain ⟨-, rfl, rfl, -⟩ := sighting?_concat_eq_some_iff.1 hc
    rfl

/-- The metadata of an identified directory has been read, so it is no sealed file. -/
theorem exists_content {es : List (Name × Entry)} {s : Region} (hl : h.list p = .ok es)
    (he : (gameInfoName, e) ∈ es) (hfile : e.isFile = true)
    (hid : (GameInfo.identify h p.trimmed).value = .ok s) : ∃ content, e = .file content := by
  obtain ⟨id, hr, -⟩ := GameInfo.identify_eq_ok_iff.1 hid
  obtain ⟨content, hs, -, -⟩ := GameInfo.readId_eq_ok_iff.1 hr
  have hlink := Entry.isLink_of_isFile hfile
  exact ⟨content, (Host.eq_of_stat_child (Host.list_trimmed hl) he hlink hs).symm⟩

theorem mem_sightings_iff (hroot : root.bytes ≠ []) :
    c ∈ sightings h depth root ↔ c.Real h root depth := by
  rw [sightings, List.mem_filterMap]
  constructor
  · rintro ⟨⟨names, e⟩, hv, hc⟩
    obtain rfl : names = c.names := exists_concat_of_sighting? hc
    obtain ⟨hfile, -, -, hid⟩ := sighting?_concat_eq_some_iff.1 hc
    obtain ⟨hlen, hreached, entries, hl, hmem⟩ := (Search.mem_visits_iff hroot).1 hv
    obtain ⟨content, rfl⟩ := exists_content hl hmem hfile hid
    exact ⟨hreached, Nat.le_of_lt_succ hlen, ⟨entries, content, hl, hmem⟩, hid⟩
  · rintro ⟨hreached, hlen, ⟨entries, content, hl, hmem⟩, hid⟩
    exact ⟨(c.names, .file content),
      (Search.mem_visits_iff hroot).2 ⟨Nat.lt_succ_of_le hlen, hreached, entries, hl, hmem⟩,
      sighting?_concat_eq_some_iff.2 ⟨rfl, rfl, rfl, hid⟩⟩

theorem sightings_sorted (h : Host) (depth : Nat) (root : Path) :
    (sightings h depth root).Pairwise fun a b => List.Lex Name.Before a.names b.names := by
  refine List.pairwise_filterMap.2 ((Search.visits_sorted h (depth + 1) root).imp ?_)
  intro v w hvw a ha b hb
  rw [← exists_concat_of_sighting? ha, ← exists_concat_of_sighting? hb]
  exact hvw

theorem visitCandidate_value (hroot : root.bytes ≠ []) {v : List Name × Entry}
    (hv : v ∈ Search.visits h depth root) :
    (visitCandidate h root (.ok (root.descendant v.1, v.2))).value =
      (sighting? h root v).toList.map (Sighting.candidate root) := by
  obtain ⟨names, e⟩ := v
  obtain ⟨dirs, n, rfl⟩ : ∃ dirs n, names = dirs ++ [n] := by
    rcases List.eq_nil_or_concat names with rfl | ⟨dirs, n, rfl⟩
    · exact absurd rfl (Search.ne_nil_of_mem_visits hv)
    · exact ⟨dirs, n, List.concat_eq_append⟩
  obtain ⟨-, hreached, entries, hl, hmem⟩ := (Search.mem_visits_iff hroot).1 hv
  obtain ⟨l, -, -, rfl⟩ := Host.list_eq_ok_iff.1 hl
  obtain ⟨hne, hcur, hpar, hslash, -, -⟩ :=
    FileTree.isValid_iff.1 (FileTree.isValid_of_find? (FileTree.mem_listing.1 hmem))
  have hdir := hreached.ne_nil hroot
  have hname : ((root.descendant dirs).child n).fileName? = some n :=
    Path.fileName?_join hdir hslash hne hcur hpar
  have hparent : ((root.descendant dirs).child n).parent? = some (root.descendant dirs).trimmed :=
    Path.parent?_join hdir hslash hne hcur
  simp only [visitCandidate, isGameInfo, Path.descendant_concat, hname, hparent, sighting?,
    List.getLast?_concat, List.dropLast_concat, Bool.and_eq_true, beq_iff_eq, gameInfoName,
    identified]
  split
  · cases (GameInfo.identify h (root.descendant dirs).trimmed).value <;> rfl
  · rfl

theorem rootCandidates_of_directory (hr : h.stat root = .ok .directory) (depth : Nat) :
    (rootCandidates h depth root).value =
      (sightings h depth root).map (Sighting.candidate root) := by
  have hroot := Host.ne_nil_of_stat hr
  obtain ⟨e, hfile, hw⟩ := Search.walk_of_directory hr rfl (depth + 1)
  have hfirst : (visitCandidate h root (.ok (root, e))).value = [] := by
    simp [visitCandidate, isGameInfo, hfile, Logged.silent]
  rw [rootCandidates, Logged.gather_value, List.flatMap_cons, List.nil_append, List.flatMap_map, hw,
    List.flatMap_cons, hfirst, List.nil_append, Search.flatMap_below _ fun _ => rfl, sightings,
    List.map_filterMap, List.filterMap_eq_flatMap_toList]
  refine List.flatMap_congr fun v hv => ?_
  rw [visitCandidate_value hroot hv, Option.toList_map]

theorem rootCandidates_of_missing {cause : IoError} (hr : h.stat root = .error cause)
    (depth : Nat) : (rootCandidates h depth root).value = [] := by
  obtain ⟨e, hw⟩ := Search.walk_of_missing hr (depth + 1)
  rw [rootCandidates, hw]
  rfl

theorem searchRoots_probe_value (h : Host) (roots : List Path) (maxDepth : Nat) :
    ((searchRoots roots maxDepth).probe h).value =
      .ok (roots.flatMap fun root => (rootCandidates h (min maxDepth 8) root).value) := by
  simp [searchRoots, Logged.map, List.flatMap_map]
  rfl

theorem components_of_descends (hd : Search.Descends h root dirs p) (hroot : root.bytes ≠ []) :
    p.components = root.components ++ dirs.map Path.Component.name := by
  induction hd with
  | root => simp
  | child above valid _ ih =>
    obtain ⟨hne, hcur, hpar, hslash, -, -⟩ := FileTree.isValid_iff.1 valid
    rw [Path.child, Path.components_join (above.ne_nil hroot) hslash hne hcur, ih]
    simp [Path.Component.ofName, hcur, hpar]

/-- A search reports the clients in reach of each root and no others, each once and
in strictly increasing order of their metadata files; a missing root has none, and
what several roots have is put together in their order. -/
theorem searchRoots_sightings (h : Host) (maxDepth : Nat) :
    (∀ root, h.stat root = .ok .directory → ∃ clients : List Sighting,
      (∀ c, c ∈ clients ↔ c.Real h root (min maxDepth 8)) ∧
      clients.Pairwise (fun a b => List.Lex Name.Before a.names b.names) ∧
      (∀ c ∈ clients, (c.path root).components = root.components ++ c.dirs.map .name) ∧
      ((searchRoots [root] maxDepth).probe h).value =
        .ok (clients.map (Sighting.candidate root))) ∧
    (∀ root cause, h.stat root = .error cause →
      ((searchRoots [root] maxDepth).probe h).value = .ok []) ∧
    ∀ roots, ((searchRoots roots maxDepth).probe h).value =
      .ok (roots.flatMap fun root => (searchRoots [root] maxDepth).candidates h) := by
  refine ⟨fun root hr => ?_, fun root cause hr => ?_, fun roots => ?_⟩
  · have hroot := Host.ne_nil_of_stat hr
    refine ⟨sightings h (min maxDepth 8) root, fun c => mem_sightings_iff hroot,
      sightings_sorted h _ root, fun c hc => ?_, ?_⟩
    · have hreached := ((mem_sightings_iff hroot).1 hc).reached
      rw [Sighting.path, Path.trimmed_components (hreached.ne_nil hroot),
        components_of_descends hreached hroot]
    · rw [searchRoots_probe_value, List.flatMap_singleton, rootCandidates_of_directory hr]
  · rw [searchRoots_probe_value, List.flatMap_singleton, rootCandidates_of_missing hr]
  · rw [searchRoots_probe_value]
    simp only [candidates_searchRoots, List.flatMap_singleton]
    rfl

end Strategy

/-- A machine with one client, in the directory `/c`. -/
def Host.withClient : Host where
  tree := (FileTree.empty.put [0x63] [] .directory).put
    (Utf8.encode Constants.gameInfoFile.toList) [[0x63]]
    (.file (Utf8.encode "<id>WOWS.PT.PRODUCTION</id>".toList))
  here := []
  environment := ⟨none, none, none, none⟩

namespace Strategy

theorem Sighting.real_withClient :
    Sighting.Real .withClient ⟨[Path.slash]⟩ 1 ⟨[[0x63]], .publicTest⟩ := by
  have hreached : Search.Descends .withClient ⟨[Path.slash]⟩ ([] ++ [[0x63]])
      (Path.child ⟨[Path.slash]⟩ [0x63]) :=
    .child .root (by decide) rfl
  have hmetadata : (gameInfoName, .file _) ∈ Host.withClient.tree.listing [[0x63]] :=
    FileTree.mem_listing.2 rfl
  exact ⟨hreached, Nat.le_refl 1, ⟨_, _, Host.list_eq_ok_iff.2 ⟨_, rfl, rfl, rfl⟩, hmetadata⟩, rfl⟩

/-- The one client of a machine below the root of its tree, and a root that is missing. -/
theorem searchRoots_sightings_client :
    let root : Path := ⟨[Path.slash]⟩
    let client : Sighting := ⟨[[0x63]], .publicTest⟩
    Host.withClient.stat root = .ok .directory ∧
      (∃ clients : List Sighting, client ∈ clients ∧
        (∀ c, c ∈ clients ↔ c.Real .withClient root 1) ∧
        ((searchRoots [root] 1).probe .withClient).value =
          .ok (clients.map (Sighting.candidate root))) ∧
      Host.withClient.stat ⟨[0x64]⟩ = .error .notFound ∧
      ((searchRoots [⟨[0x64]⟩] 1).probe .withClient).value = .ok [] := by
  intro root client
  have hroot : Host.withClient.stat root = .ok .directory := rfl
  have hmissing : Host.withClient.stat ⟨[0x64]⟩ = .error .notFound := rfl
  obtain ⟨hfound, hnone, -⟩ := searchRoots_sightings .withClient 1
  obtain ⟨clients, hmem, -, -, hprobe⟩ := hfound root hroot
  exact ⟨hroot, ⟨clients, (hmem client).2 Sighting.real_withClient, hmem, hprobe⟩, hmissing,
    hnone _ _ hmissing⟩

end Strategy
end InstallLocator
