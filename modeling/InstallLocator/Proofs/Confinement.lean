import InstallLocator.Proofs.SearchRootClients

/-!
# Search roots confine a search

What a directory offers as a search root is that directory or lies below it, no
deeper than the search may go. A root that is missing, or that is no directory,
offers nothing, with one exception: a root that is itself a metadata file offers
the directory it stands in, which is above the root.
-/

set_option autoImplicit false

namespace InstallLocator

/-- The path is the root or lies below it, component by component. -/
def Path.Within (p root : Path) : Prop := root.components <+: p.components

instance (p root : Path) : Decidable (p.Within root) :=
  inferInstanceAs (Decidable (_ <+: _))

namespace Strategy

variable {h : Host} {root : Path} {depth : Nat} {c : Candidate}

/-- The root names a metadata file, and not a link to one. -/
def IsMetadata (h : Host) (root : Path) : Prop :=
  (∃ e, h.statLink root = .ok e ∧ e.isFile = true) ∧ root.fileName? = some gameInfoName

/-- The candidate is the root or below it, at most so many directories down. -/
structure Confined (root : Path) (depth : Nat) (c : Candidate) : Prop where
  within : c.path.Within root
  near : c.path.components.length ≤ root.components.length + depth

theorem Confined.eq_root (hc : Confined root 0 c) : c.path.components = root.components :=
  (hc.within.eq_of_length_le hc.near).symm

theorem confined_of_directory (hr : h.stat root = .ok .directory)
    (hc : c ∈ (rootCandidates h depth root).value) : Confined root depth c := by
  have hroot := Host.ne_nil_of_stat hr
  rw [rootCandidates_of_directory hr] at hc
  obtain ⟨sighting, hs, rfl⟩ := List.mem_map.1 hc
  obtain ⟨reached, near, -, -⟩ := (mem_sightings_iff hroot).1 hs
  have hpath : (sighting.path root).components =
      root.components ++ sighting.dirs.map Path.Component.name := by
    rw [Sighting.path, Path.trimmed_components (reached.ne_nil hroot),
      components_of_descends reached hroot]
  refine ⟨⟨_, hpath.symm⟩, ?_⟩
  change (sighting.path root).components.length ≤ _
  rw [hpath, List.length_append, List.length_map]
  exact Nat.add_le_add_left near _

theorem walk_of_not_directory {e : Entry} (hr : h.stat root = .ok e)
    (he : e.isDirectory = false) : ∃ f, h.statLink root = .ok f ∧
      Search.walk h depth root = [.ok (root, f)] := by
  obtain hs | ⟨target, hs⟩ := Host.statLink_of_stat hr
  · refine ⟨e, hs, ?_⟩
    rw [Search.walk, hs]
    simp [hr, he]
  · refine ⟨_, hs, ?_⟩
    rw [Search.walk, hs]
    simp [hr, he, Entry.isLink]

theorem isMetadata_of_not_directory {e : Entry} (hr : h.stat root = .ok e)
    (he : e.isDirectory = false) (hc : c ∈ (rootCandidates h depth root).value) :
    IsMetadata h root ∧ root.parent? = some c.path := by
  obtain ⟨p, f, hmem, hgame, hparent, -⟩ := mem_rootCandidates_iff.1 hc
  obtain ⟨g, hs, hw⟩ := walk_of_not_directory hr he
  rw [hw, List.mem_singleton] at hmem
  cases hmem
  simp only [isGameInfo, Bool.and_eq_true, beq_iff_eq] at hgame
  exact ⟨⟨⟨f, hs, hgame.1⟩, hgame.2⟩, hparent⟩

theorem not_isMetadata_of_directory (hr : h.stat root = .ok .directory) : ¬IsMetadata h root := by
  rintro ⟨⟨e, hs, hfile⟩, -⟩
  cases (Host.stat_of_statLink hs (Entry.isLink_of_isFile hfile)).symm.trans hr
  cases hfile

theorem rootCandidates_of_closed {cause : IoError} (hr : h.stat root = .ok (.closed cause)) :
    (rootCandidates h depth root).value = [] := by
  obtain ⟨e, hfile, hw⟩ := Search.walk_of_directory hr rfl (depth + 1)
  have hbelow : Search.below h (depth + 1) root = [.error ⟨root, cause⟩] := by
    obtain ⟨l, hl, hfind⟩ := Host.stat_eq_ok_iff.1 hr
    rw [Search.below, Host.list_of_closed hl hfind]
  rw [rootCandidates, hw, hbelow]
  simp [Logged.gather, visitCandidate, isGameInfo, hfile, Logged.silent]

/-- Every candidate of a search is its root or lies below it, unless the root is a
metadata file: then it is the directory that the root stands in. A search of depth
zero looks at the roots alone, with the same exception. -/
theorem searchRoots_confined (h : Host) (roots : List Path) (maxDepth : Nat) :
    ∃ found, ((searchRoots roots maxDepth).probe h).value = .ok found ∧
      ∀ c ∈ found, ∃ root ∈ roots,
        (¬IsMetadata h root ∧ c.path.Within root ∧
            c.path.components.length ≤ root.components.length + min maxDepth 8 ∧
            (maxDepth = 0 → c.path.components = root.components)) ∨
          (IsMetadata h root ∧ root.parent? = some c.path) := by
  refine ⟨_, searchRoots_probe_value h roots maxDepth, fun c hc => ?_⟩
  obtain ⟨root, hroot, hc⟩ := List.mem_flatMap.1 hc
  refine ⟨root, hroot, ?_⟩
  cases hr : h.stat root with
  | error cause =>
    rw [rootCandidates_of_missing hr] at hc
    cases hc
  | ok e =>
    cases hd : e.isDirectory with
    | false => exact Or.inr (isMetadata_of_not_directory hr hd hc)
    | true =>
      obtain rfl | ⟨cause, rfl⟩ := Entry.isDirectory_iff.1 hd
      · have hconfined := confined_of_directory hr hc
        refine Or.inl ⟨not_isMetadata_of_directory hr, hconfined.within, hconfined.near, ?_⟩
        rintro rfl
        exact hconfined.eq_root
      · rw [rootCandidates_of_closed hr] at hc
        cases hc

/-- The client of a machine, found from the root of its tree. -/
theorem searchRoots_confined_client :
    let root : Path := ⟨[Path.slash]⟩
    let client : Candidate := Sighting.candidate root ⟨[[0x63]], .publicTest⟩
    ∃ found, ((searchRoots [root] 1).probe .withClient).value = .ok found ∧ client ∈ found ∧
      client.path.Within root ∧ client.path.components.length ≤ root.components.length + 1 := by
  intro root client
  obtain ⟨found, hfound, hall⟩ := searchRoots_confined .withClient [root] 1
  have hmem : client ∈ found := by
    have hvalue := searchRoots_probe_value .withClient [root] 1
    rw [List.flatMap_singleton, rootCandidates_of_directory rfl] at hvalue
    rw [← Except.ok.inj (hvalue.symm.trans hfound)]
    exact List.mem_map_of_mem ((mem_sightings_iff (by decide)).2 Sighting.real_withClient)
  obtain ⟨r, hr, ⟨-, hwithin, hnear, -⟩ | ⟨⟨⟨e, hs, he⟩, -⟩, -⟩⟩ := hall client hmem
  · cases List.mem_singleton.1 hr
    exact ⟨found, hfound, hmem, hwithin, hnear⟩
  · cases List.mem_singleton.1 hr
    cases hs
    cases he

/-- A metadata file as the only root, and a search that should not leave it: what is
found is the directory above. -/
theorem searchRoots_strays :
    let root : Path := .ofText "/c/game_info.xml"
    let stray : Candidate := ⟨.publicTest, .ofText "/c", searchRootName⟩
    ((searchRoots [root] 0).probe .withClient).value = .ok [stray] ∧
      stray.path ≠ root ∧ ¬stray.path.Within root := by
  refine ⟨?_, by decide, by decide⟩
  with_unfolding_all rfl

end Strategy
end InstallLocator
