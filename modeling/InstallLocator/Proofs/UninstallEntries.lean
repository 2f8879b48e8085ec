import InstallLocator.Proofs.OverrideTable
import InstallLocator.Proofs.RegistryEntries
import InstallLocator.Proofs.SearchRootClients
import InstallLocator.Proofs.SectionReading

/-!
# Candidates of the uninstall registry

An entry offers at most one candidate, so the candidates of the registry stand in
the order of its entries. A publisher that is written into the settings is
accepted in every spelling.
-/

set_option autoImplicit false

namespace InstallLocator

namespace Strategy

variable {h : Host} {publishers : List String}

theorem identified_length (h : Host) (source : String) (directory : Path) :
    (identified h source directory).value.length ≤ 1 := by
  unfold identified
  cases hi : (GameInfo.identify h directory).value <;> simp [hi]

theorem registryCandidate_length (h : Host) (publishers : List String) (e : UninstallEntry) :
    (registryCandidate h publishers e).value.length ≤ 1 := by
  by_cases hplace : ∃ location, e.LiesAt location
  · obtain ⟨location, place⟩ := hplace
    cases key : Region.ofGameId? e.key with
    | some s =>
      rw [registryCandidate_product place key]
      exact Nat.le_refl 1
    | none =>
      rw [registryCandidate_metadata place key]
      split
      · exact identified_length h registryName _
      · exact Nat.zero_le 1
  · rw [registryCandidate_unplaced hplace]
    exact Nat.zero_le 1

theorem eq_head?_toList {α : Type} {xs : List α} (h : xs.length ≤ 1) : xs = xs.head?.toList := by
  match xs, h with
  | [], _ => rfl
  | [_], _ => rfl

theorem registry_eq_error_iff {source : UninstallSource} {e : ProbeError} :
    ((registry source publishers).probe h).value = .error e ↔
      (source.entries h).value = .error e := by
  simp only [registry]
  cases (source.entries h).value <;> simp

theorem registry_of_entries {source : UninstallSource} {entries : List UninstallEntry}
    (hs : (source.entries h).value = .ok entries) :
    ((registry source publishers).probe h).value =
      .ok (entries.filterMap fun e => (registryCandidate h publishers e).value.head?) := by
  have hone : ∀ e, (registryCandidate h publishers e).value =
      (registryCandidate h publishers e).value.head?.toList := fun e =>
    eq_head?_toList (registryCandidate_length h publishers e)
  simp only [registry, hs, Logged.gather_value, List.flatMap_map,
    List.filterMap_eq_flatMap_toList]
  exact congrArg Except.ok (List.flatMap_congr fun e _ => hone e)

end Strategy

namespace Settings

theorem trim_mem_judgePublishers {names : List String} {p : String} (hp : p ∈ names)
    (hne : trim p ≠ "") : trim p ∈ (judgePublishers (some names)).value := by
  have hkept : trim p ∈ (names.map trim).filter (· ≠ "") :=
    List.mem_filter.2 ⟨List.mem_map_of_mem hp, by simpa using hne⟩
  rw [judgePublishers]
  split
  · rename_i hnone
    rw [hnone] at hkept
    cases hkept
  · exact hkept

theorem acceptedBy_parse {text : String} {raw : RawSettings} {names : List String} {p q : String}
    {e : UninstallEntry} (origin : Path) (hraw : RawSettings.parse text = .ok raw)
    (hnames : raw.publishers = some names) (hp : p ∈ names) (hne : trim p ≠ "")
    (hq : e.publisher = some q) (hpq : sameIgnoringCase (trim p) (trim q) = true) :
    e.AcceptedBy (parse text origin).1.publishers := by
  have hkept : trim p ∈ (parse text origin).1.publishers := by
    rw [parse_of_wellShaped hraw]
    change trim p ∈ (judgePublishers raw.publishers).value
    rw [hnames]
    exact trim_mem_judgePublishers hp hne
  exact ⟨q, hq, trim p, hkept, hpq⟩

end Settings

namespace Strategy

/-- Asking the uninstall registry fails if and only if its source does, and with the
error of the source. Otherwise each entry gives, in the order of the entries, the
one candidate that it offers or nothing. A publisher that the settings name, blank
ones apart, accepts all entries that spell it with other white space around it or
in another case. -/
theorem registry_offers (source : UninstallSource) (publishers : List String) (h : Host) :
    (∀ e, ((registry source publishers).probe h).value = .error e ↔
        (source.entries h).value = .error e) ∧
      (∀ entries, (source.entries h).value = .ok entries →
        ∃ found : UninstallEntry → Option Candidate,
          (∀ e c, found e = some c ↔ e.Offers h publishers c) ∧
          ((registry source publishers).probe h).value = .ok (entries.filterMap found)) ∧
      ∀ (text : String) (origin : Path) (raw : RawSettings) (names : List String) (p q : String)
        (e : UninstallEntry), RawSettings.parse text = .ok raw → raw.publishers = some names →
          p ∈ names → trim p ≠ "" → e.publisher = some q →
            sameIgnoringCase (trim p) (trim q) = true →
              e.AcceptedBy (Settings.parse text origin).1.publishers := by
  refine ⟨fun e => registry_eq_error_iff, fun entries hs => ?_,
    fun text origin raw names p q e hraw hnames hp hne hq hpq =>
      Settings.acceptedBy_parse origin hraw hnames hp hne hq hpq⟩
  refine ⟨_, fun e c => ?_, registry_of_entries hs⟩
  rw [← mem_registryCandidate_iff, eq_head?_toList (registryCandidate_length h publishers e),
    Option.mem_toList]
  simp

/-- A key in lower case decides although nothing is there. Otherwise the publisher
must be the one of the settings, and then the metadata names the region. -/
theorem registry_offers_listed :
    let text := "[discovery]\npublishers = [\"\", \" Acme \"]\n"
    let byKey : UninstallEntry := ⟨" wows.ww.production", none, some " /gone "⟩
    let byPublisher : UninstallEntry := ⟨"client", some "ACME", some "/c"⟩
    let stranger : UninstallEntry := ⟨"client", some "Other", some "/c"⟩
    let entries := [byKey, stranger, byPublisher]
    ∃ raw, RawSettings.parse text = .ok raw ∧ raw.publishers = some ["", " Acme "] ∧
      let publishers := (Settings.parse text ⟨[]⟩).1.publishers
      byPublisher.AcceptedBy publishers ∧ ¬stranger.AcceptedBy publishers ∧
      ((registry (.listed entries) publishers).probe .withClient).value =
        .ok [⟨.worldwide, .ofText "/gone", "registry"⟩, ⟨.publicTest, .ofText "/c", "registry"⟩] ∧
      ∀ cause, ((registry (.failing "k" cause) publishers).probe .withClient).value =
        .error (.registry "k" cause) := by
  intro text byKey byPublisher stranger entries
  have hraw : RawSettings.parse text =
      .ok { RawSettings.empty with publishers := some ["", " Acme "] } :=
    RawSettings.parse_of_toOption (by decide +kernel)
  refine ⟨_, hraw, rfl, ?_⟩
  intro publishers
  have hpublishers : publishers = ["Acme"] := by
    simp only [publishers, Settings.parse_of_wellShaped hraw]
    decide
  obtain ⟨-, hfound, haccepts⟩ := registry_offers (.listed entries) publishers .withClient
  have haccepted : byPublisher.AcceptedBy publishers :=
    haccepts text ⟨[]⟩ _ _ " Acme " "ACME" byPublisher hraw rfl (by decide) (by decide) rfl
      (by decide)
  have hother : Region.ofGameId? "client" = none := by decide
  have hstranger : ¬stranger.AcceptedBy publishers := by
    rw [hpublishers, ← isAccepted_iff]
    decide
  obtain ⟨found, hfound, hprobe⟩ := hfound entries rfl
  have hkey : found byKey = some ⟨.worldwide, .ofText "/gone", "registry"⟩ :=
    (hfound _ _).2 (.product ⟨by decide, by decide⟩ (by decide))
  have hpublisher : found byPublisher = some ⟨.publicTest, .ofText "/c", "registry"⟩ :=
    (hfound _ _).2 (.metadata ⟨by decide, by decide⟩ (Region.ofGameId?_eq_none_iff.1 hother)
      haccepted (by with_unfolding_all rfl))
  have hnone : found stranger = none := by
    refine Option.eq_none_iff_forall_ne_some.2 fun c hc => ?_
    rcases (hfound _ _).1 hc with ⟨-, hspelled⟩ | ⟨-, -, haccepted, -⟩
    · cases hother.symm.trans (Region.ofGameId?_eq_some_iff.2 hspelled)
    · exact hstranger haccepted
  refine ⟨haccepted, hstranger, ?_, fun cause => ?_⟩
  · rw [hprobe]
    simp only [entries, List.filterMap_cons, hkey, hnone, hpublisher, List.filterMap_nil]
  · exact ((registry_offers (.failing "k" cause) publishers .withClient).1 _).2 rfl

end Strategy
end InstallLocator
