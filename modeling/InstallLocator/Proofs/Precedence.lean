import InstallLocator.Proofs.Descent
import InstallLocator.Proofs.Provenance

/-!
# Precedence of the sources

A usable override decides its region, and no other override has a say in it. A
source that is added to a standard chain, or a walk that goes deeper, may find
more but loses no region, and no entry from a source before it changes.
-/

set_option autoImplicit false

namespace InstallLocator

namespace Survey

variable {h : Host} {s : Region} {i : Install} {cs ds before more after : List Candidate}

theorem firstUsable_mono (hsub : cs ⊆ ds) (hc : (firstUsable h cs s).isSome = true) :
    (firstUsable h ds s).isSome = true := by
  rw [Option.isSome_iff_ne_none, Ne, firstUsable_eq_none_iff, Classical.not_not] at hc ⊢
  obtain ⟨c, hc, hfits⟩ := hc
  exact ⟨c, hsub hc, hfits⟩

/-- Candidates put in between leave an install alone that does not come from
those after them. -/
theorem firstUsable_insert (hi : firstUsable h (before ++ after) s = some i)
    (hafter : ∀ c ∈ after, c.source ≠ i.source) :
    firstUsable h (before ++ more ++ after) s = some i := by
  rw [firstUsable_append] at hi
  rw [List.append_assoc, firstUsable_append]
  cases hb : firstUsable h before s with
  | some j =>
    rw [hb, Option.some_or] at hi
    rw [Option.some_or, hi]
  | none =>
    rw [hb, Option.none_or] at hi
    exact absurd rfl (hafter _ (exists_of_firstUsable hi).1)

end Survey

namespace Strategy

/-- The names of the standard strategies, the first to be probed in front. -/
def priorities : List String :=
  ["override", registryName, steamName, defaultPathName, searchRootName]

def Precedes (a b : String) : Prop := priorities.idxOf a < priorities.idxOf b

instance (a b : String) : Decidable (Precedes a b) := inferInstanceAs (Decidable (_ < _))

theorem Precedes.trans {a b c : String} (hab : Precedes a b) (hbc : Precedes b c) :
    Precedes a c :=
  Nat.lt_trans hab hbc

theorem Precedes.ne {a b : String} (hab : Precedes a b) : a ≠ b := by
  rintro rfl
  exact Nat.lt_irrefl _ hab

end Strategy

theorem Settings.source_of_steam {lookup : Strategy.SteamLookup} {h : Host} {s : Settings}
    {c : Candidate} (hc : c ∈ Survey.offered h (s.steamStrategies lookup)) :
    c.source = Strategy.steamName :=
  (Strategy.mem_candidates_steamFrom_iff.1 (Survey.mem_candidates_of_switched hc)).2.1

/-- One more place to look at: a strategy switched on, or further search roots. -/
inductive Addition
  | registry
  | steam
  | defaultPaths
  | searchRoots (roots : List Path)

namespace Addition

def applyTo : Addition → Settings → Settings
  | registry, s => { s with useRegistry := true }
  | steam, s => { s with useSteam := true }
  | defaultPaths, s => { s with useDefaultPaths := true }
  | searchRoots roots, s => { s with searchRoots := s.searchRoots ++ roots }

def source : Addition → String
  | registry => Strategy.registryName
  | steam => Strategy.steamName
  | defaultPaths => Strategy.defaultPathName
  | searchRoots _ => Strategy.searchRootName

variable {lookup : Strategy.SteamLookup} {home : Option Path} {h : Host} {s : Settings}

theorem exists_offered_switched (h : Host) (strategy : Strategy) (on : Bool) :
    ∃ more, Survey.offered h [strategy] =
      Survey.offered h (if on then [strategy] else []) ++ more := by
  cases on with
  | false => exact ⟨_, rfl⟩
  | true => exact ⟨[], (List.append_nil _).symm⟩

theorem offered_registry (source : UninstallSource) (h : Host) (s : Settings) :
    ∃ more, Survey.offered h ((registry.applyTo s).registryStrategies source) =
      Survey.offered h (s.registryStrategies source) ++ more :=
  exists_offered_switched h (.registry source s.publishers) s.useRegistry

theorem offered_steam (lookup : Strategy.SteamLookup) (h : Host) (s : Settings) :
    ∃ more, Survey.offered h ((steam.applyTo s).steamStrategies lookup) =
      Survey.offered h (s.steamStrategies lookup) ++ more :=
  exists_offered_switched h (.steamFrom lookup Constants.steamAppId) s.useSteam

theorem offered_defaultPaths (home : Option Path) (h : Host) (s : Settings) :
    ∃ more, Survey.offered h ((defaultPaths.applyTo s).defaultPathStrategies home) =
      Survey.offered h (s.defaultPathStrategies home) ++ more :=
  exists_offered_switched h (.defaultPaths (Strategy.homePatterns home)) s.useDefaultPaths

theorem offered_searchRoots (h : Host) (s : Settings) (roots : List Path) :
    ∃ more, Survey.offered h ((searchRoots roots).applyTo s).searchRootStrategies =
      Survey.offered h s.searchRootStrategies ++ more := by
  simp only [Settings.offered_searchRootStrategies, applyTo, List.flatMap_append]
  exact ⟨_, rfl⟩

theorem steam_precedes {c : Candidate} (hc : c ∈ Survey.offered h (s.defaultPathStrategies home) ++
    Survey.offered h s.searchRootStrategies) :
    Strategy.Precedes Strategy.steamName c.source := by
  rcases List.mem_append.1 hc with hd | hr
  · rw [(Settings.identified_of_defaultPath hd).2]
    decide
  · rw [(Settings.identified_of_searchRoot hr).2]
    decide

theorem registry_precedes {c : Candidate} (hc : c ∈ Survey.offered h (s.steamStrategies lookup) ++
    (Survey.offered h (s.defaultPathStrategies home) ++ Survey.offered h s.searchRootStrategies)) :
    Strategy.Precedes Strategy.registryName c.source := by
  have hsteam : Strategy.Precedes Strategy.registryName Strategy.steamName := by decide
  rcases List.mem_append.1 hc with hs | hlater
  · rw [Settings.source_of_steam hs]
    exact hsteam
  · exact hsteam.trans (steam_precedes hlater)

/-- An addition puts its candidates before those of the sources that come later. -/
theorem offered_applyTo (source : UninstallSource) (lookup : Strategy.SteamLookup)
    (home : Option Path) (h : Host) (s : Settings) (a : Addition) :
    ∃ before more after, Survey.offered h (s.chain source lookup home) = before ++ after ∧
      Survey.offered h ((a.applyTo s).chain source lookup home) = before ++ more ++ after ∧
      ∀ c ∈ after, Strategy.Precedes a.source c.source := by
  simp only [Settings.offered_chain, List.append_assoc]
  -- What is added stands at the end of what its own source offers.
  cases a with
  | registry =>
    obtain ⟨more, hmore⟩ := offered_registry source h s
    refine ⟨Survey.offered h s.overrideStrategies ++
      Survey.offered h (s.registryStrategies source), more, _,
      (List.append_assoc _ _ _).symm, ?_, fun c hc => registry_precedes hc⟩
    rw [hmore]
    simp only [List.append_assoc]
    rfl
  | steam =>
    obtain ⟨more, hmore⟩ := offered_steam lookup h s
    refine ⟨Survey.offered h s.overrideStrategies ++
      (Survey.offered h (s.registryStrategies source) ++
        Survey.offered h (s.steamStrategies lookup)), more,
      Survey.offered h (s.defaultPathStrategies home) ++ Survey.offered h s.searchRootStrategies,
      by simp only [List.append_assoc], ?_, fun c hc => steam_precedes hc⟩
    rw [hmore]
    simp only [List.append_assoc]
    rfl
  | defaultPaths =>
    obtain ⟨more, hmore⟩ := offered_defaultPaths home h s
    refine ⟨Survey.offered h s.overrideStrategies ++
      (Survey.offered h (s.registryStrategies source) ++
        (Survey.offered h (s.steamStrategies lookup) ++
          Survey.offered h (s.defaultPathStrategies home))), more,
      Survey.offered h s.searchRootStrategies, by simp only [List.append_assoc], ?_,
      fun c hc => ?_⟩
    · rw [hmore]
      simp only [List.append_assoc]
      rfl
    · rw [(Settings.identified_of_searchRoot hc).2]
      decide
  | searchRoots roots =>
    obtain ⟨more, hmore⟩ := offered_searchRoots h s roots
    refine ⟨_, more, [], (List.append_nil _).symm, ?_, fun c hc => by cases hc⟩
    rw [hmore]
    simp only [List.append_assoc, List.append_nil]
    rfl

end Addition

namespace Search

variable {h : Host} {d e : Nat}

theorem below_mono (hle : d ≤ e) (p : Path) : below h d p ⊆ below h e p := by
  induction d generalizing e p with
  | zero => exact List.nil_subset _
  | succ d ih =>
    obtain ⟨e, rfl⟩ : ∃ k, e = k + 1 := ⟨e - 1, by omega⟩
    rw [below, below]
    cases h.list p with
    | error cause => exact List.Subset.refl _
    | ok entries =>
      intro visit hv
      obtain ⟨x, hx, hvisit⟩ := List.mem_flatMap.1 hv
      refine List.mem_flatMap.2 ⟨x, hx, ?_⟩
      rcases List.mem_cons.1 hvisit with rfl | hbelow
      · exact List.mem_cons_self
      · split at hbelow
        · rename_i hd
          rw [if_pos hd]
          exact List.mem_cons_of_mem _ (ih (Nat.le_of_succ_le_succ hle) _ hbelow)
        · cases hbelow

theorem walk_mono (hle : d ≤ e) (root : Path) : walk h d root ⊆ walk h e root := by
  rcases walk_cases h root with ⟨cause, herror⟩ | ⟨entry, hends | hbelow⟩
  · rw [herror, herror]
    exact List.Subset.refl _
  · rw [hends, hends]
    exact List.Subset.refl _
  · rw [hbelow, hbelow]
    exact List.cons_subset_cons _ (below_mono hle root)

end Search

theorem Strategy.rootCandidates_mono {h : Host} {d e : Nat} (hle : d ≤ e) (root : Path) :
    (rootCandidates h d root).value ⊆ (rootCandidates h e root).value := by
  intro c hc
  obtain ⟨p, e, hv, hfound⟩ := mem_rootCandidates_iff.1 hc
  exact mem_rootCandidates_iff.2 ⟨p, e, Search.walk_mono (Nat.succ_le_succ hle) root hv, hfound⟩

namespace Settings

def record (source : UninstallSource) (lookup : Strategy.SteamLookup) (home : Option Path)
    (h : Host) (s : Settings) : InstallRecord :=
  ((Locator.ofSettingsFrom source lookup s home).locate h).value.record

def withoutOverrides (s : Settings) : Settings := { s with overrides := .empty }

def withDepth (s : Settings) (depth : Nat) : Settings := { s with maxDepth := depth }

variable (source : UninstallSource) (lookup : Strategy.SteamLookup) (home : Option Path)
  (h : Host) (s : Settings) {r : Region} {p : Path}

theorem record_get (r : Region) :
    (s.record source lookup home h).get r =
      Survey.firstUsable h (Survey.offered h (s.chain source lookup home)) r :=
  Locator.locate_get h _ r

theorem offered_chain_overrides :
    Survey.offered h (s.chain source lookup home) = Survey.offered h s.overrideStrategies ++
      Survey.offered h (s.withoutOverrides.chain source lookup home) := by
  rw [offered_chain, offered_chain, offered_overrideStrategies h s.withoutOverrides]
  simp only [List.append_assoc]
  rfl

theorem firstUsable_override (hp : s.overrides.get r = some p) (hu : h.Usable p) :
    Survey.firstUsable h (Survey.offered h s.overrideStrategies) r = some ⟨p, "override"⟩ := by
  have hmem : (⟨r, p, "override"⟩ : Candidate) ∈ Survey.offered h s.overrideStrategies := by
    rw [offered_overrideStrategies]
    exact List.mem_map.2 ⟨(r, p), RegionMap.mem_entries.2 hp, rfl⟩
  cases hf : Survey.firstUsable h (Survey.offered h s.overrideStrategies) r with
  | none => exact absurd ⟨_, hmem, rfl, hu⟩ (Survey.firstUsable_eq_none_iff.1 hf)
  | some i =>
    obtain ⟨hi, -⟩ := Survey.exists_of_firstUsable hf
    rw [offered_overrideStrategies] at hi
    obtain ⟨⟨_, q⟩, hx, he⟩ := List.mem_map.1 hi
    obtain ⟨rfl, rfl, hsource⟩ := Candidate.mk.inj he
    have hpq : s.overrides.get _ = some i.path := RegionMap.mem_entries.1 hx
    rw [hp] at hpq
    cases hpq
    rw [hsource]

theorem firstUsable_override_eq_none (hn : ¬∃ p, s.overrides.get r = some p ∧ h.Usable p) :
    Survey.firstUsable h (Survey.offered h s.overrideStrategies) r = none := by
  rw [Survey.firstUsable_eq_none_iff, offered_overrideStrategies]
  rintro ⟨c, hc, rfl, hu⟩
  obtain ⟨x, hx, rfl⟩ := List.mem_map.1 hc
  exact hn ⟨x.2, RegionMap.mem_entries.1 hx, hu⟩

theorem record_get_override (r : Region) :
    (∀ p, s.overrides.get r = some p → h.Usable p →
        (s.record source lookup home h).get r = some ⟨p, "override"⟩) ∧
      ((¬∃ p, s.overrides.get r = some p ∧ h.Usable p) →
        (s.record source lookup home h).get r =
          (s.withoutOverrides.record source lookup home h).get r) := by
  simp only [record_get, offered_chain_overrides source lookup home h s, Survey.firstUsable_append]
  constructor
  · intro p hp hu
    rw [firstUsable_override h s hp hu, Option.some_or]
  · intro hn
    rw [firstUsable_override_eq_none h s hn, Option.none_or]

theorem record_applyTo (a : Addition) {i : Install}
    (hi : (s.record source lookup home h).get r = some i) :
    (((a.applyTo s).record source lookup home h).get r).isSome = true ∧
      (Strategy.Precedes i.source a.source →
        ((a.applyTo s).record source lookup home h).get r = some i) := by
  obtain ⟨before, more, after, hs, ha, hafter⟩ := a.offered_applyTo source lookup home h s
  rw [record_get, hs] at hi
  rw [record_get, ha]
  constructor
  · refine Survey.firstUsable_mono ?_ (Option.isSome_of_mem hi)
    refine List.append_subset.2 ⟨?_, List.subset_append_right _ _⟩
    exact List.subset_append_of_subset_left _ (List.subset_append_left _ _)
  · intro hbefore
    exact Survey.firstUsable_insert hi fun c hc => (hbefore.trans (hafter c hc)).ne.symm

theorem record_searchRoots (roots : List Path) {i : Install}
    (hi : (s.record source lookup home h).get r = some i) :
    (((Addition.searchRoots roots).applyTo s).record source lookup home h).get r = some i := by
  obtain ⟨more, hmore⟩ := Addition.offered_searchRoots h s roots
  have hchain :
      Survey.offered h (((Addition.searchRoots roots).applyTo s).chain source lookup home) =
        Survey.offered h (s.chain source lookup home) ++ more := by
    rw [offered_chain, offered_chain, hmore, ← List.append_assoc]
    rfl
  rw [record_get] at hi ⊢
  rw [hchain, Survey.firstUsable_append, hi, Option.some_or]

theorem record_withDepth {depth : Nat} (hdepth : s.maxDepth ≤ depth)
    (hr : ((s.record source lookup home h).get r).isSome = true) :
    (((s.withDepth depth).record source lookup home h).get r).isSome = true := by
  rw [record_get] at hr ⊢
  refine Survey.firstUsable_mono (fun c hc => ?_) hr
  rw [mem_offered_chain_iff] at hc ⊢
  refine hc.imp_right fun hc => hc.imp_right fun hc => hc.imp_right fun hc =>
    hc.imp_right fun hc => ?_
  rw [offered_searchRootStrategies] at hc ⊢
  obtain ⟨root, hroot, hc⟩ := List.mem_flatMap.1 hc
  have hmin : min s.maxDepth Constants.maxSearchDepth ≤ min depth Constants.maxSearchDepth := by
    omega
  exact List.mem_flatMap.2 ⟨root, hroot, Strategy.rootCandidates_mono hmin root hc⟩

/-- Overrides come first and each decides its own region alone. A source that is
switched on, further search roots and deeper walks lose no region, and what they
find changes no entry from a source before theirs. -/
theorem record_precedence :
    (∀ r, (∀ p, s.overrides.get r = some p → h.Usable p →
        (s.record source lookup home h).get r = some ⟨p, "override"⟩) ∧
      ((¬∃ p, s.overrides.get r = some p ∧ h.Usable p) →
        (s.record source lookup home h).get r =
          (s.withoutOverrides.record source lookup home h).get r)) ∧
      (∀ (a : Addition) (r : Region) (i : Install), (s.record source lookup home h).get r = some i →
        (((a.applyTo s).record source lookup home h).get r).isSome = true ∧
          (Strategy.Precedes i.source a.source →
            ((a.applyTo s).record source lookup home h).get r = some i)) ∧
      (∀ (roots : List Path) (r : Region) (i : Install),
        (s.record source lookup home h).get r = some i →
          (((Addition.searchRoots roots).applyTo s).record source lookup home h).get r = some i) ∧
      ∀ (depth : Nat) (r : Region), s.maxDepth ≤ depth →
        ((s.record source lookup home h).get r).isSome = true →
          (((s.withDepth depth).record source lookup home h).get r).isSome = true :=
  ⟨record_get_override source lookup home h s,
    fun a _ _ hi => record_applyTo source lookup home h s a hi,
    fun roots _ _ hi => record_searchRoots source lookup home h s roots hi,
    fun _ _ hdepth hr => record_withDepth source lookup home h s hdepth hr⟩

/-- The root as the override of one region, with an entry of the registry for it, Steam
switched on, a search root added and the depth raised. -/
theorem record_precedence_root :
    let h : Host := ⟨.empty, [], ⟨none, none, none, none⟩⟩
    let root : Path := ⟨[Path.slash]⟩
    let s := { Settings.default with
      useRegistry := false
      useSteam := false
      overrides := RegionMap.empty.set .china root }
    let source : UninstallSource := .listed [⟨"WOWS.PT.PRODUCTION", none, some "/"⟩]
    let lookup : Strategy.SteamLookup := fun _ _ => .silent (.ok (some root))
    h.Usable root ∧ (s.record source lookup none h).get .china = some ⟨root, "override"⟩ ∧
      (s.record source lookup none h).get .worldwide =
        (s.withoutOverrides.record source lookup none h).get .worldwide ∧
      (((Addition.registry).applyTo s).record source lookup none h).get .publicTest =
        some ⟨root, "registry"⟩ ∧
      (((Addition.registry).applyTo s).record source lookup none h).get .china =
        some ⟨root, "override"⟩ ∧
      (((Addition.steam).applyTo s).record source lookup none h).get .china =
        some ⟨root, "override"⟩ ∧
      (((Addition.searchRoots [root]).applyTo s).record source lookup none h).get .china =
        some ⟨root, "override"⟩ ∧
      (((s.withDepth 8).record source lookup none h).get .china).isSome = true := by
  intro h root s source lookup
  obtain ⟨hoverride, hadd, hroots, hdepth⟩ := record_precedence source lookup none h s
  have hu : h.Usable root := by decide
  have hchina := (hoverride .china).1 root rfl hu
  have hregistry : (((Addition.registry).applyTo s).record source lookup none h).get .publicTest =
      some ⟨root, "registry"⟩ := by
    decide
  refine ⟨hu, hchina, (hoverride .worldwide).2 ?_, hregistry,
    (hadd .registry .china _ hchina).2 (by decide), (hadd .steam .china _ hchina).2 (by decide),
    hroots [root] .china _ hchina, hdepth 8 .china (by decide) (Option.isSome_of_mem hchina)⟩
  rintro ⟨p, hp, -⟩
  cases hp

end Settings

end InstallLocator
