import InstallLocator.Proofs.SearchRootClients

/-!
# No client below a search root is missed

A client in reach of a walk is a candidate, under the path of its directory or
a shorter one for it. So its region is resolved by any chain that walks there,
whatever the strategies before it found.
-/

set_option autoImplicit false

namespace InstallLocator

namespace Strategy

variable {h : Host} {root directory : Path} {names : List Name} {s : Region} {content : Bytes}

theorem exists_rootCandidate {depth : Nat} (habs : root.isAbsolute = true)
    (hroot : h.stat root = .ok .directory) (hreach : Search.Descends h root names directory)
    (hdepth : names.length ≤ depth)
    (hfile : h.statLink (GameInfo.file directory) = .ok (.file content))
    (hid : (GameInfo.identify h directory).value = .ok s) :
    ∃ c ∈ (rootCandidates h depth root).value, Survey.Fits h s c := by
  have hp := hreach.isAbsolute habs
  have hb := Path.ne_nil_of_isAbsolute hp
  have hvalid : Name.isValid (Utf8.encode Constants.gameInfoFile.toList) = true := by decide
  obtain rfl := hreach.eq_descendant
  obtain ⟨entries, hlist, hentry⟩ := Search.listed_of_statLink hb hvalid hfile
  have hreal : Sighting.Real h root depth ⟨names, s⟩ :=
    ⟨hreach, hdepth, ⟨entries, content, hlist, hentry⟩, GameInfo.identify_trimmed hb hid⟩
  have htrims := Path.trims_trimmed hb
  have habs' : (root.descendant names).trimmed.isAbsolute = true := by
    rw [← hp, Path.isAbsolute_of_start htrims.ne_nil htrims.start]
  refine ⟨Sighting.candidate root ⟨names, s⟩, ?_, rfl, htrims.ne_nil, habs',
    Host.isDirectory_of_stat (Host.stat_trimmed (hreach.stat hroot))⟩
  rw [rootCandidates_of_directory hroot]
  exact List.mem_map_of_mem ((mem_sightings_iff (Host.ne_nil_of_stat hroot)).2 hreal)

end Strategy

namespace Locator

/-- A client that lies at most as deep below a search root as the walk may go,
and never deeper than eight, has its region resolved. -/
theorem locate_reaches (source : UninstallSource) (lookup : Strategy.SteamLookup)
    (settings : Settings) (home : Option Path) (h : Host) (root directory : Path)
    (names : List Name) (s : Region) (content : Bytes) (hmem : root ∈ settings.searchRoots)
    (habs : ∀ p ∈ settings.searchRoots, p.isAbsolute = true)
    (hroot : h.stat root = .ok .directory) (hreach : Search.Descends h root names directory)
    (hdepth : names.length ≤ min settings.maxDepth 8)
    (hfile : h.statLink (GameInfo.file directory) = .ok (.file content))
    (hid : (GameInfo.identify h directory).value = .ok s) :
    (((ofSettingsFrom source lookup settings home).locate h).value.record.get s).isSome = true := by
  obtain ⟨c, hc, hfits⟩ :=
    Strategy.exists_rootCandidate (habs root hmem) hroot hreach hdepth hfile hid
  refine locate_get_isSome_iff.2 ⟨c, ?_, hfits⟩
  refine Settings.mem_offered_chain_iff.2 (Or.inr (Or.inr (Or.inr (Or.inr ?_))))
  rw [Settings.offered_searchRootStrategies]
  exact List.mem_flatMap.2 ⟨root, hmem, hc⟩

/-- The client is found one level below the root of the tree. -/
theorem locate_reaches_client :
    let root : Path := ⟨[Path.slash]⟩
    let settings := { Settings.default with searchRoots := [root], maxDepth := 1 }
    Host.withClient.stat root = .ok .directory ∧
      Search.Descends .withClient root [[0x63]] (root.child [0x63]) ∧
      (GameInfo.identify .withClient (root.child [0x63])).value = .ok .publicTest ∧
      (((ofSettingsFrom .absent Strategy.steamLookup settings none).locate
        .withClient).value.record.get .publicTest).isSome = true := by
  intro root settings
  have hroot : Host.withClient.stat root = .ok .directory := rfl
  have hreach : Search.Descends .withClient root [[0x63]] (root.child [0x63]) :=
    Strategy.Sighting.real_withClient.reached
  have hid : (GameInfo.identify .withClient (root.child [0x63])).value = .ok .publicTest := rfl
  exact ⟨hroot, hreach, hid, locate_reaches .absent Strategy.steamLookup settings none .withClient
    root (root.child [0x63]) [[0x63]] .publicTest _ (by simp [settings])
    (fun p hp => List.mem_singleton.1 hp ▸ rfl) hroot hreach (by decide) rfl hid⟩

end Locator
end InstallLocator
