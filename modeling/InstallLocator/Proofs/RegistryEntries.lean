import InstallLocator.Proofs.Offers

/-!
# What an uninstall entry offers

A key that spells a product id decides by itself; any other entry must come from
an accepted publisher, and then the metadata of the install decides.
-/

set_option autoImplicit false

namespace InstallLocator

namespace UninstallEntry

/-- The install location without the white space around it, if anything is left. -/
def LiesAt (e : UninstallEntry) (location : String) : Prop :=
  e.location.map trim = some location ∧ location ≠ ""

/-- The publisher is one of these, white space around it and the case of its
letters left out of account. -/
def AcceptedBy (e : UninstallEntry) (publishers : List String) : Prop :=
  ∃ publisher, e.publisher = some publisher ∧
    ∃ known ∈ publishers, sameIgnoringCase known (trim publisher) = true

/-- What an entry stands for: the region whose product id is its key, or else, for an
accepted publisher, the region of the metadata at its location. -/
inductive Offers (h : Host) (publishers : List String) (e : UninstallEntry) : Candidate → Prop
  | product {location : String} {s : Region} (place : e.LiesAt location)
    (key : sameIgnoringCase s.gameId (trim e.key) = true) :
    Offers h publishers e ⟨s, .ofText location, "registry"⟩
  | metadata {location : String} {s : Region} (place : e.LiesAt location)
    (other : ∀ r : Region, sameIgnoringCase r.gameId (trim e.key) = false)
    (accepted : e.AcceptedBy publishers)
    (identified : (GameInfo.identify h (.ofText location)).value = .ok s) :
    Offers h publishers e ⟨s, .ofText location, "registry"⟩

variable {h : Host} {publishers : List String} {e : UninstallEntry} {c : Candidate}
  {location : String}

theorem Offers.exists_place (hc : e.Offers h publishers c) : ∃ location, e.LiesAt location := by
  cases hc with
  | product place key => exact ⟨_, place⟩
  | metadata place other accepted identified => exact ⟨_, place⟩

theorem Offers.source_eq (hc : e.Offers h publishers c) : c.source = "registry" := by
  cases hc with
  | product place key => rfl
  | metadata place other accepted identified => rfl

theorem LiesAt.eq {other : String} (hl : e.LiesAt location) (ho : e.LiesAt other) :
    location = other :=
  Option.some_inj.1 (hl.1.symm.trans ho.1)

theorem offers_product_iff {s : Region} (place : e.LiesAt location)
    (key : Region.ofGameId? e.key = some s) :
    e.Offers h publishers c ↔ c = ⟨s, .ofText location, "registry"⟩ := by
  constructor
  · rintro (⟨there, spelled⟩ | ⟨there, other, -, -⟩)
    · cases key.symm.trans (Region.ofGameId?_eq_some_iff.2 spelled)
      rw [place.eq there]
    · cases key.symm.trans (Region.ofGameId?_eq_none_iff.2 other)
  · rintro rfl
    exact .product place (Region.ofGameId?_eq_some_iff.1 key)

theorem offers_metadata_iff (place : e.LiesAt location) (key : Region.ofGameId? e.key = none) :
    e.Offers h publishers c ↔ e.AcceptedBy publishers ∧
      (GameInfo.identify h (.ofText location)).value = .ok c.region ∧
        c.path = .ofText location ∧ c.source = "registry" := by
  constructor
  · rintro (⟨there, spelled⟩ | ⟨there, other, accepted, identified⟩)
    · cases key.symm.trans (Region.ofGameId?_eq_some_iff.2 spelled)
    · cases place.eq there
      exact ⟨accepted, identified, rfl, rfl⟩
  · obtain ⟨s, p, source⟩ := c
    rintro ⟨accepted, identified, rfl, rfl⟩
    exact .metadata place (Region.ofGameId?_eq_none_iff.1 key) accepted identified

end UninstallEntry

namespace Strategy

variable {h : Host} {publishers : List String} {e : UninstallEntry} {c : Candidate}
  {location : String}

theorem location_eq_some_iff :
    (e.location.map trim).filter (· ≠ "") = some location ↔ e.LiesAt location := by
  simp [UninstallEntry.LiesAt, Option.filter_eq_some_iff]

theorem isAccepted_iff : isAccepted publishers e.publisher = true ↔ e.AcceptedBy publishers := by
  unfold isAccepted UninstallEntry.AcceptedBy
  cases e.publisher <;> simp

theorem registryCandidate_unplaced (hn : ¬∃ location, e.LiesAt location) :
    (registryCandidate h publishers e).value = [] := by
  have hnone : (e.location.map trim).filter (· ≠ "") = none :=
    Option.eq_none_iff_forall_ne_some.2 fun l hl => hn ⟨l, location_eq_some_iff.1 hl⟩
  simp only [registryCandidate, hnone]

theorem registryCandidate_product {s : Region} (place : e.LiesAt location)
    (key : Region.ofGameId? e.key = some s) :
    (registryCandidate h publishers e).value = [⟨s, .ofText location, registryName⟩] := by
  simp only [registryCandidate, location_eq_some_iff.2 place, key]
  rfl

theorem registryCandidate_metadata (place : e.LiesAt location)
    (key : Region.ofGameId? e.key = none) :
    (registryCandidate h publishers e).value =
      if isAccepted publishers e.publisher then
        (identified h registryName (.ofText location)).value
      else [] := by
  simp only [registryCandidate, location_eq_some_iff.2 place, key]
  split <;> rfl

theorem mem_registryCandidate_iff :
    c ∈ (registryCandidate h publishers e).value ↔ e.Offers h publishers c := by
  by_cases hplace : ∃ location, e.LiesAt location
  · obtain ⟨location, place⟩ := hplace
    cases key : Region.ofGameId? e.key with
    | some s =>
      rw [registryCandidate_product place key, UninstallEntry.offers_product_iff place key,
        List.mem_singleton]
      rfl
    | none =>
      rw [registryCandidate_metadata place key, UninstallEntry.offers_metadata_iff place key,
        ← isAccepted_iff]
      by_cases ha : isAccepted publishers e.publisher = true
      · rw [if_pos ha, mem_identified_iff]
        exact (and_iff_right ha).symm
      · simp [ha]
  · rw [registryCandidate_unplaced hplace]
    exact ⟨fun hc => absurd hc List.not_mem_nil, fun hc => absurd hc.exists_place hplace⟩

end Strategy
end InstallLocator
