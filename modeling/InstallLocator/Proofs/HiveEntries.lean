import InstallLocator.Proofs.RegistryEntries
import InstallLocator.Proofs.StrategyEvents
import InstallLocator.Strategy.UninstallHives

/-!
# Entries of the hives

One hive that opens is enough, whichever it is: its entries count, and what is
unreadable in it or in another hive takes nothing from them.
-/

set_option autoImplicit false

namespace InstallLocator

namespace Hive

def Holds (v : Hive) (e : UninstallEntry) : Prop :=
  ∃ key, v.openKey Constants.uninstallKey = .ok key ∧ ∃ name values, .ok name ∈ key.names ∧
    key.subkey name = .ok values ∧ e = UninstallKey.entryOf name values

variable {v : Hive} {hives : List Hive} {key : UninstallKey} {cause : IoError}
  {e : UninstallEntry}

theorem mem_readSubkey_iff {hive : String} {found : Except IoError String} :
    e ∈ (key.readSubkey hive found).value ↔ ∃ name values, found = .ok name ∧
      key.subkey name = .ok values ∧ e = UninstallKey.entryOf name values := by
  cases found with
  | error cause => simp [UninstallKey.readSubkey]
  | ok name =>
    cases hs : key.subkey name with
    | error cause => simp [UninstallKey.readSubkey, hs]
    | ok values => simp [UninstallKey.readSubkey, hs, Logged.silent]

theorem read_of_closed (hc : v.openKey Constants.uninstallKey = .error cause) :
    v.read.value = .error (.registry (v.name ++ "\\" ++ Constants.uninstallKey) cause) := by
  simp only [read, hc]

theorem read_of_open (hk : v.openKey Constants.uninstallKey = .ok key) :
    v.read.value = .ok (key.names.flatMap fun n => (key.readSubkey v.name n).value) := by
  simp only [read, hk, Logged.map, Logged.gather_value, List.flatMap_map]

theorem failure?_of_closed (hc : v.openKey Constants.uninstallKey = .error cause) :
    v.failure? = some (.registry (v.name ++ "\\" ++ Constants.uninstallKey) cause) := by
  simp only [failure?, read_of_closed hc]

theorem holds_iff : v.Holds e ↔ ∃ entries, v.read.value = .ok entries ∧ e ∈ entries := by
  cases hk : v.openKey Constants.uninstallKey with
  | error cause => simp [Holds, hk, read_of_closed hk]
  | ok key =>
    simp only [Holds, hk, read_of_open hk, Except.ok.injEq, exists_eq_left', List.mem_flatMap,
      mem_readSubkey_iff]
    constructor
    · rintro ⟨name, values, hname, hrest⟩
      exact ⟨.ok name, hname, name, values, rfl, hrest⟩
    · rintro ⟨_, hname, name, values, rfl, hrest⟩
      exact ⟨name, values, hname, hrest⟩

theorem mem_opened_iff {entries : List UninstallEntry} :
    entries ∈ opened hives ↔ ∃ v ∈ hives, v.read.value = .ok entries := by
  simp only [opened, List.mem_filterMap]
  refine exists_congr fun v => and_congr_right fun _ => ?_
  cases v.read.value <;> simp [Except.toOption]

theorem mem_flatten_opened_iff : e ∈ (opened hives).flatten ↔ ∃ v ∈ hives, v.Holds e := by
  simp only [List.mem_flatten, mem_opened_iff, holds_iff]
  constructor
  · rintro ⟨entries, ⟨v, hv, hread⟩, he⟩
    exact ⟨v, hv, entries, hread, he⟩
  · rintro ⟨v, hv, entries, hread, he⟩
    exact ⟨entries, ⟨v, hv, hread⟩, he⟩

theorem opened_eq_nil_iff :
    opened hives = [] ↔ ∀ v ∈ hives, ∃ cause, v.openKey Constants.uninstallKey = .error cause := by
  rw [List.eq_nil_iff_forall_not_mem]
  constructor
  · intro hnone v hv
    cases hk : v.openKey Constants.uninstallKey with
    | error cause => exact ⟨cause, rfl⟩
    | ok key => exact absurd (mem_opened_iff.2 ⟨v, hv, read_of_open hk⟩) (hnone _)
  · intro hclosed entries hmem
    obtain ⟨v, hv, hread⟩ := mem_opened_iff.1 hmem
    obtain ⟨cause, hc⟩ := hclosed v hv
    rw [read_of_closed hc] at hread
    cases hread

theorem outside_read (v : Hive) : Event.Outside v.read.events := by
  unfold read
  split
  · exact Event.outside_singleton rfl
  · refine Event.outside_gather (List.forall_mem_map.2 fun found _ => ?_)
    unfold UninstallKey.readSubkey
    split
    · exact Event.outside_singleton rfl
    · split
      · exact Event.outside_singleton rfl
      · exact Event.outside_nil

end Hive

namespace UninstallSource

variable {hives : List Hive} {h : Host}

theorem ofHives_eq_error_iff {e : ProbeError} :
    ((ofHives hives).entries h).value = .error e ↔
      Hive.opened hives = [] ∧ (hives.filterMap Hive.failure?).getLast? = some e := by
  unfold ofHives
  cases ho : Hive.opened hives with
  | nil => cases (hives.filterMap Hive.failure?).getLast? <;> simp
  | cons entries rest => simp

theorem eq_flatten_of_ofHives {entries : List UninstallEntry}
    (hs : ((ofHives hives).entries h).value = .ok entries) :
    entries = (Hive.opened hives).flatten := by
  unfold ofHives at hs
  cases ho : Hive.opened hives with
  | nil =>
    cases hl : (hives.filterMap Hive.failure?).getLast? with
    | none => simpa [ho, hl, eq_comm] using hs
    | some e => simp [ho, hl] at hs
  | cons first rest => simpa [ho, eq_comm] using hs

/-- Reading the registry of Windows fails if and only if neither hive opens, and then
with what the machine's answered. -/
theorem windows_eq_error_iff {user machine : String → Except IoError UninstallKey}
    {e : ProbeError} :
    ((windows user machine).entries h).value = .error e ↔
      (∃ cause, user Constants.uninstallKey = .error cause) ∧
        ∃ cause, machine Constants.uninstallKey = .error cause ∧
          e = .registry ("HKLM\\" ++ Constants.uninstallKey) cause := by
  have hlast : ∀ {a b : IoError}, user Constants.uninstallKey = .error a →
      machine Constants.uninstallKey = .error b →
        ([⟨"HKCU", user⟩, ⟨"HKLM", machine⟩].filterMap Hive.failure?).getLast? =
          some (.registry ("HKLM\\" ++ Constants.uninstallKey) b) := by
    intro a b hu hm
    rw [List.filterMap_cons_some (Hive.failure?_of_closed hu),
      List.filterMap_cons_some (Hive.failure?_of_closed hm)]
    rfl
  rw [windows, ofHives_eq_error_iff, Hive.opened_eq_nil_iff]
  constructor
  · rintro ⟨hclosed, he⟩
    obtain ⟨a, hu⟩ := hclosed ⟨"HKCU", user⟩ List.mem_cons_self
    obtain ⟨b, hm⟩ := hclosed ⟨"HKLM", machine⟩ (List.mem_cons_of_mem _ List.mem_cons_self)
    rw [hlast hu hm] at he
    exact ⟨⟨a, hu⟩, b, hm, (Option.some_inj.1 he).symm⟩
  · rintro ⟨⟨a, hu⟩, b, hm, rfl⟩
    exact ⟨List.forall_mem_cons.2 ⟨⟨a, hu⟩, List.forall_mem_singleton.2 ⟨b, hm⟩⟩, hlast hu hm⟩

theorem outside_ofHives (hives : List Hive) (h : Host) :
    Event.Outside ((ofHives hives).entries h).events := by
  have hread : Event.Outside (hives.flatMap fun v => v.read.events) := by
    intro e he
    obtain ⟨v, -, hv⟩ := List.mem_flatMap.1 he
    exact v.outside_read e hv
  unfold ofHives
  simp only
  split
  · exact hread
  · exact hread.append (Event.outside_singleton rfl)

end UninstallSource

/-- The registry offers what the entries of all hives offer, one hive being as good as
another. -/
theorem Strategy.mem_candidates_ofHives_iff {hives : List Hive} {h : Host}
    {publishers : List String} {c : Candidate} :
    c ∈ (registry (.ofHives hives) publishers).candidates h ↔
      ∃ v ∈ hives, ∃ e, v.Holds e ∧ e.Offers h publishers c := by
  simp only [mem_candidates_registry_iff, mem_registryCandidate_iff]
  constructor
  · rintro ⟨entries, hentries, e, he, hoffers⟩
    rw [UninstallSource.eq_flatten_of_ofHives hentries, Hive.mem_flatten_opened_iff] at he
    obtain ⟨v, hv, hholds⟩ := he
    exact ⟨v, hv, e, hholds, hoffers⟩
  · rintro ⟨v, hv, e, hholds, hoffers⟩
    have he : e ∈ (Hive.opened hives).flatten := Hive.mem_flatten_opened_iff.2 ⟨v, hv, hholds⟩
    -- No hive opens where the source fails, so none would hold the entry.
    cases hs : ((UninstallSource.ofHives hives).entries h).value with
    | error p =>
      rw [(UninstallSource.ofHives_eq_error_iff.1 hs).1] at he
      cases he
    | ok entries =>
      rw [← UninstallSource.eq_flatten_of_ofHives hs] at he
      exact ⟨entries, rfl, e, he, hoffers⟩

end InstallLocator
