import InstallLocator.Proofs.RegistryEntries

/-!
# Where the entries of a record come from

Every entry of a record is usable, and its source says what is known of it: an
override is the path of the settings, the registry has an entry that stands for
it, a default path or search root has the region in its metadata, and so has a
directory of Steam unless its metadata names no product at all.
-/

set_option autoImplicit false

namespace InstallLocator

/-- What the source of a candidate says about it. -/
structure Candidate.Vouched (source : UninstallSource) (h : Host) (settings : Settings)
    (c : Candidate) : Prop where
  source_mem : c.source ∈ ["override", "registry", "steam", "default-path", "search-root"]
  override : c.source = "override" → settings.overrides.get c.region = some c.path
  registry : c.source = "registry" → ∃ entries, (source.entries h).value = .ok entries ∧
    ∃ e ∈ entries, e.Offers h settings.publishers c
  identified : c.source = "default-path" ∨ c.source = "search-root" →
    (GameInfo.identify h c.path).value = .ok c.region
  steam : c.source = "steam" → (GameInfo.identify h c.path).value = .ok c.region ∨
    c.region = .worldwide ∧ ∃ e, (GameInfo.identify h c.path).value = .error e ∧
      ∀ p id, e ≠ .unknownId p id

namespace Candidate

variable {source : UninstallSource} {h : Host} {settings : Settings} {c : Candidate}

theorem vouched_override (hs : c.source = "override")
    (hp : settings.overrides.get c.region = some c.path) : c.Vouched source h settings where
  source_mem := by simp [hs]
  override _ := hp
  registry ho := by simp [hs] at ho
  identified ho := by simp [hs] at ho
  steam ho := by simp [hs] at ho

theorem vouched_registry (hs : c.source = "registry")
    (he : ∃ entries, (source.entries h).value = .ok entries ∧
      ∃ e ∈ entries, e.Offers h settings.publishers c) : c.Vouched source h settings where
  source_mem := by simp [hs]
  override ho := by simp [hs] at ho
  registry _ := he
  identified ho := by simp [hs] at ho
  steam ho := by simp [hs] at ho

theorem vouched_identified (hs : c.source = "default-path" ∨ c.source = "search-root")
    (hi : (GameInfo.identify h c.path).value = .ok c.region) : c.Vouched source h settings where
  source_mem := by rcases hs with hs | hs <;> simp [hs]
  override ho := by simp [ho] at hs
  registry ho := by simp [ho] at hs
  identified _ := hi
  steam _ := Or.inl hi

theorem vouched_steam (hs : c.source = "steam")
    (hr : Strategy.steamRegion? (GameInfo.identify h c.path).value = some c.region) :
    c.Vouched source h settings where
  source_mem := by simp [hs]
  override ho := by simp [hs] at ho
  registry ho := by simp [hs] at ho
  identified ho := by simp [hs] at ho
  steam _ := Strategy.steamRegion?_eq_some_iff.1 hr

end Candidate

namespace Strategy

theorem matchCandidate_identified {h : Host} {pattern : String}
    {found : Except Glob.ExpandError Path} {c : Candidate}
    (hc : c ∈ (matchCandidate h pattern found).value) :
    (GameInfo.identify h c.path).value = .ok c.region ∧ c.source = defaultPathName := by
  unfold matchCandidate at hc
  split at hc
  · cases hc
  · rename_i p
    split at hc
    · obtain ⟨hi, rfl, hs⟩ := mem_identified_iff.1 hc
      exact ⟨hi, hs⟩
    · cases hc

theorem patternCandidates_identified {h : Host} {pattern : String} {c : Candidate}
    (hc : c ∈ (patternCandidates h pattern).value) :
    (GameInfo.identify h c.path).value = .ok c.region ∧ c.source = defaultPathName := by
  unfold patternCandidates at hc
  split at hc
  · cases hc
  · rw [Logged.gather_value, List.flatMap_map] at hc
    obtain ⟨found, -, hf⟩ := List.mem_flatMap.1 hc
    exact matchCandidate_identified hf

theorem rootCandidates_identified {h : Host} {depth : Nat} {root : Path} {c : Candidate}
    (hc : c ∈ (rootCandidates h depth root).value) :
    (GameInfo.identify h c.path).value = .ok c.region ∧ c.source = searchRootName := by
  obtain ⟨p, e, -, -, -, hfound⟩ := mem_rootCandidates_iff.1 hc
  exact hfound

end Strategy

namespace Settings

variable {source : UninstallSource} {h : Host} {s : Settings} {c : Candidate}

theorem vouched_of_override (hc : c ∈ Survey.offered h s.overrideStrategies) :
    c.Vouched source h s := by
  rw [offered_overrideStrategies] at hc
  obtain ⟨⟨r, p⟩, hx, rfl⟩ := List.mem_map.1 hc
  exact Candidate.vouched_override rfl (RegionMap.mem_entries.1 hx)

theorem exists_entry_of_registry (hc : c ∈ Survey.offered h (s.registryStrategies source)) :
    ∃ entries, (source.entries h).value = .ok entries ∧
      ∃ e ∈ entries, e.Offers h s.publishers c := by
  obtain ⟨entries, hentries, e, he, hc⟩ :=
    Strategy.mem_candidates_registry_iff.1 (Survey.mem_candidates_of_switched hc)
  exact ⟨entries, hentries, e, he, Strategy.mem_registryCandidate_iff.1 hc⟩

theorem vouched_of_registry (hc : c ∈ Survey.offered h (s.registryStrategies source)) :
    c.Vouched source h s := by
  obtain ⟨entries, hentries, e, he, hoffers⟩ := exists_entry_of_registry hc
  exact Candidate.vouched_registry hoffers.source_eq ⟨entries, hentries, e, he, hoffers⟩

theorem vouched_of_steam {lookup : Strategy.SteamLookup}
    (hc : c ∈ Survey.offered h (s.steamStrategies lookup)) : c.Vouched source h s := by
  obtain ⟨-, hs, hr⟩ :=
    Strategy.mem_candidates_steamFrom_iff.1 (Survey.mem_candidates_of_switched hc)
  exact Candidate.vouched_steam hs hr

theorem identified_of_defaultPath {home : Option Path}
    (hc : c ∈ Survey.offered h (s.defaultPathStrategies home)) :
    (GameInfo.identify h c.path).value = .ok c.region ∧ c.source = Strategy.defaultPathName := by
  have hc := Survey.mem_candidates_of_switched hc
  rw [Strategy.candidates_defaultPaths] at hc
  obtain ⟨pattern, -, hp⟩ := List.mem_flatMap.1 hc
  exact Strategy.patternCandidates_identified hp

theorem identified_of_searchRoot (hc : c ∈ Survey.offered h s.searchRootStrategies) :
    (GameInfo.identify h c.path).value = .ok c.region ∧ c.source = Strategy.searchRootName := by
  rw [offered_searchRootStrategies] at hc
  obtain ⟨root, -, hr⟩ := List.mem_flatMap.1 hc
  exact Strategy.rootCandidates_identified hr

theorem vouched_of_offered {lookup : Strategy.SteamLookup} {home : Option Path}
    (hc : c ∈ Survey.offered h (s.chain source lookup home)) : c.Vouched source h s := by
  rcases mem_offered_chain_iff.1 hc with ho | hg | hs | hd | hr
  · exact vouched_of_override ho
  · exact vouched_of_registry hg
  · exact vouched_of_steam hs
  · obtain ⟨hi, hsource⟩ := identified_of_defaultPath hd
    exact Candidate.vouched_identified (Or.inl hsource) hi
  · obtain ⟨hi, hsource⟩ := identified_of_searchRoot hr
    exact Candidate.vouched_identified (Or.inr hsource) hi

end Settings

theorem Candidate.Vouched.source_mem_of_no_entry {source : UninstallSource} {h : Host}
    {settings : Settings} {c : Candidate} (hc : c.Vouched source h settings)
    (hnone : (source.entries h).value = .ok []) :
    c.source ∈ ["override", "steam", "default-path", "search-root"] := by
  have hne : c.source ≠ "registry" := by
    intro hs
    obtain ⟨entries, hentries, e, he, -⟩ := hc.registry hs
    rw [hnone] at hentries
    cases hentries
    cases he
  have hmem := hc.source_mem
  simp only [List.mem_cons] at hmem ⊢
  exact hmem.imp_right fun hrest => hrest.resolve_left hne

theorem Survey.exists_of_firstUsable {h : Host} {cs : List Candidate} {s : Region}
    {i : Install} (hi : firstUsable h cs s = some i) :
    (⟨s, i.path, i.source⟩ : Candidate) ∈ cs ∧ h.Usable i.path := by
  obtain ⟨c, hc, rfl⟩ := Option.map_eq_some_iff.1 hi
  have hfit : Fits h s c := by simpa using List.find?_some hc
  obtain ⟨rfl, hu⟩ := hfit
  exact ⟨List.mem_of_find?_eq_some hc, hu⟩

namespace Locator

/-- Whatever the registry and Steam answer, an entry of the record is usable and
vouched for by its source, which is not the registry where that has no entries. -/
theorem locate_vouched (source : UninstallSource) (lookup : Strategy.SteamLookup)
    (settings : Settings) (home : Option Path) (h : Host) (s : Region) (i : Install)
    (found : ((ofSettingsFrom source lookup settings home).locate h).value.record.get s = some i) :
    h.Usable i.path ∧ Candidate.Vouched source h settings ⟨s, i.path, i.source⟩ ∧
      ((source.entries h).value = .ok [] →
        i.source ∈ ["override", "steam", "default-path", "search-root"]) := by
  rw [locate_get] at found
  obtain ⟨hc, hu⟩ := Survey.exists_of_firstUsable found
  have hv := Settings.vouched_of_offered hc
  exact ⟨hu, hv, hv.source_mem_of_no_entry⟩

/-- The root as the override of one region, and Steam naming it for another. -/
theorem locate_vouched_root :
    let h : Host := ⟨.empty, [], ⟨none, none, none, none⟩⟩
    let root : Path := ⟨[Path.slash]⟩
    let settings := { Settings.default with overrides := RegionMap.empty.set .china root }
    let l := ofSettingsFrom .absent (fun _ _ => .silent (.ok (some root))) settings none
    (l.locate h).value.record.get .worldwide = some ⟨root, "steam"⟩ ∧ h.Usable root ∧
      Candidate.Vouched .absent h settings ⟨.worldwide, root, "steam"⟩ := by
  intro h root settings l
  have found : (l.locate h).value.record.get .worldwide = some ⟨root, "steam"⟩ := by decide
  obtain ⟨husable, hvouched, -⟩ :=
    locate_vouched .absent _ settings none h .worldwide ⟨root, "steam"⟩ found
  exact ⟨found, husable, hvouched⟩

end Locator
end InstallLocator
