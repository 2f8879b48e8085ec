import InstallLocator.Locator
import InstallLocator.Proofs.Listing

/-!
# The first usable candidate wins

A survey stops as soon as every region is resolved. Its record is nevertheless
the one of the whole chain: each region has the first usable candidate that any
strategy offers for it. The strategies probed are the shortest part of the
chain that resolves every region.
-/

set_option autoImplicit false

namespace InstallLocator

/-- Not empty, absolute, and leading to a directory. -/
def Host.Usable (h : Host) (p : Path) : Prop :=
  p.bytes ≠ [] ∧ p.isAbsolute = true ∧ h.isDirectory p = true

instance (h : Host) (p : Path) : Decidable (h.Usable p) :=
  inferInstanceAs (Decidable (_ ∧ _ ∧ _))

theorem checkInstallDirectory_ok_iff {h : Host} {p : Path} :
    checkInstallDirectory h p = .ok () ↔ h.Usable p := by
  unfold checkInstallDirectory Host.Usable
  rw [Host.isDirectory_iff]
  by_cases he : p.bytes = []
  · simp [he]
  by_cases ha : p.isAbsolute = true
  · cases hs : h.stat p with
    | error e => simp [he, ha]
    | ok e => cases e <;> simp [he, ha]
  · simp [he, ha]

def Strategy.candidates (h : Host) (s : Strategy) : List Candidate :=
  match (s.probe h).value with
  | .ok cs => cs
  | .error _ => []

namespace Survey

/-- Everything that a chain offers, in its order. -/
def offered (h : Host) (chain : List Strategy) : List Candidate :=
  chain.flatMap (Strategy.candidates h)

def Fits (h : Host) (s : Region) (c : Candidate) : Prop :=
  c.region = s ∧ h.Usable c.path

instance (h : Host) (s : Region) (c : Candidate) : Decidable (Fits h s c) :=
  inferInstanceAs (Decidable (_ ∧ _))

def firstUsable (h : Host) (cs : List Candidate) (s : Region) : Option Install :=
  (cs.find? fun c => Fits h s c).map fun c => ⟨c.path, c.source⟩

theorem firstUsable_append (h : Host) (cs ds : List Candidate) (s : Region) :
    firstUsable h (cs ++ ds) s = (firstUsable h cs s).or (firstUsable h ds s) := by
  unfold firstUsable
  rw [List.find?_append]
  cases cs.find? fun c => Fits h s c <;> rfl

theorem firstUsable_eq_none_iff {h : Host} {cs : List Candidate} {s : Region} :
    firstUsable h cs s = none ↔ ¬∃ c ∈ cs, Fits h s c := by
  simp [firstUsable]

theorem accept_cases (h : Host) (r : InstallRecord) (c : Candidate) :
    ((r.get c.region).isSome = true ∧ accept h r c = ⟨r, [.alreadyResolved c]⟩) ∨
      (¬h.Usable c.path ∧ ∃ problem, accept h r c = ⟨r, [.candidateRejected c problem]⟩) ∨
      (r.get c.region = none ∧ h.Usable c.path ∧ accept h r c =
        ⟨(r.insertFirst c.region ⟨c.path, c.source⟩).1, [.candidateAccepted c]⟩) := by
  unfold accept
  by_cases hr : r.contains c.region = true
  · exact Or.inl ⟨hr, if_pos hr⟩
  · have hopen : r.get c.region = none := by simpa [InstallRecord.contains] using hr
    refine Or.inr ?_
    rw [if_neg hr]
    cases hc : checkInstallDirectory h c.path with
    | error problem =>
      refine Or.inl ⟨fun hu => ?_, problem, rfl⟩
      rw [checkInstallDirectory_ok_iff.2 hu] at hc
      cases hc
    | ok u => exact Or.inr ⟨hopen, checkInstallDirectory_ok_iff.1 hc, rfl⟩

theorem accept_get (h : Host) (r : InstallRecord) (c : Candidate) (s : Region) :
    (accept h r c).value.get s = (r.get s).or (firstUsable h [c] s) := by
  obtain ⟨hr, heq⟩ | ⟨hu, problem, heq⟩ | ⟨hopen, hu, heq⟩ := accept_cases h r c
  · obtain ⟨i, hi⟩ := Option.isSome_iff_exists.1 hr
    rw [heq]
    by_cases hs : c.region = s
    · simp [← hs, hi]
    · simp [firstUsable, Fits, hs]
  · simp [heq, firstUsable, Fits, hu]
  · rw [heq, InstallRecord.insertFirst_get]
    by_cases hs : c.region = s <;> simp [firstUsable, Fits, hu, hs]

theorem acceptAll_get (h : Host) (r : InstallRecord) (cs : List Candidate) (s : Region) :
    (acceptAll h r cs).value.get s = (r.get s).or (firstUsable h cs s) := by
  induction cs generalizing r with
  | nil => simp [acceptAll, firstUsable]
  | cons c cs ih =>
    change (acceptAll h (accept h r c).value cs).value.get s = _
    rw [ih, accept_get, Option.or_assoc, ← firstUsable_append]
    rfl

theorem probe_get (h : Host) (r : InstallRecord) (strategy : Strategy) (s : Region) :
    (probe h r strategy).value.get s =
      (r.get s).or (firstUsable h (strategy.candidates h) s) := by
  unfold probe Strategy.candidates
  cases hp : (strategy.probe h).value with
  | error e => simp [hp, firstUsable]
  | ok cs => simpa only [hp] using acceptAll_get h r cs s

theorem isComplete_iff {r : InstallRecord} :
    r.isComplete = true ↔ ∀ s, (r.get s).isSome = true := by
  simp only [InstallRecord.isComplete, List.all_eq_true, InstallRecord.contains]
  exact ⟨fun hr s => hr s (Region.mem_all s), fun hr s _ => hr s⟩

/-- The early stop leaves no trace in the record. -/
theorem run_get (h : Host) (r : InstallRecord) (chain : List Strategy) (s : Region) :
    (run h r chain).value.record.get s =
      (r.get s).or (firstUsable h (offered h chain) s) := by
  induction chain generalizing r with
  | nil => simp [run, offered, firstUsable]
  | cons strategy rest ih =>
    rw [run]
    by_cases hr : r.isComplete = true
    -- The survey stops here, and no region is open to the rest of the chain.
    · obtain ⟨i, hi⟩ := Option.isSome_iff_exists.1 (isComplete_iff.1 hr s)
      simp [hr, hi]
    · rw [if_neg hr]
      change (run h (probe h r strategy).value rest).value.record.get s = _
      rw [ih, probe_get, Option.or_assoc, ← firstUsable_append]
      rfl

/-- Every region has a usable candidate among those that a chain offers. -/
def Resolves (h : Host) (chain : List Strategy) : Prop :=
  ∀ s, ∃ c ∈ offered h chain, Fits h s c

/-- So many strategies are the shortest part of a chain that resolves every
region, or the whole chain if there is none. -/
structure IsStop (h : Host) (chain : List Strategy) (n : Nat) : Prop where
  le_length : n ≤ chain.length
  resolves : n < chain.length → Resolves h (chain.take n)
  minimal : ∀ m < n, ¬Resolves h (chain.take m)

def Completes (h : Host) (r : InstallRecord) (chain : List Strategy) : Prop :=
  ∀ s, ((r.get s).or (firstUsable h (offered h chain) s)).isSome = true

theorem completes_nil_iff {h : Host} {r : InstallRecord} :
    Completes h r [] ↔ r.isComplete = true := by
  simp [Completes, isComplete_iff, offered, firstUsable]

theorem completes_cons_iff {h : Host} {r : InstallRecord} {strategy : Strategy}
    {rest : List Strategy} :
    Completes h r (strategy :: rest) ↔ Completes h (probe h r strategy).value rest := by
  unfold Completes
  refine forall_congr' fun s => ?_
  rw [probe_get, Option.or_assoc, ← firstUsable_append]
  rfl

theorem completes_empty_iff {h : Host} {chain : List Strategy} :
    Completes h .empty chain ↔ Resolves h chain := by
  refine forall_congr' fun s => ?_
  rw [RegionMap.get_empty, Option.none_or, Option.isSome_iff_ne_none, Ne,
    firstUsable_eq_none_iff, Classical.not_not]

/-- The number of strategies probed is the least one that completes the record. -/
theorem run_probed (h : Host) (r : InstallRecord) (chain : List Strategy) :
    (run h r chain).value.probed ≤ chain.length ∧
      ((run h r chain).value.probed < chain.length →
        Completes h r (chain.take (run h r chain).value.probed)) ∧
      ∀ m < (run h r chain).value.probed, ¬Completes h r (chain.take m) := by
  induction chain generalizing r with
  | nil => simp [run]
  | cons strategy rest ih =>
    rw [run]
    by_cases hr : r.isComplete = true
    · simp [hr, completes_nil_iff]
    · rw [if_neg hr]
      obtain ⟨hle, hstop, hmin⟩ := ih (probe h r strategy).value
      refine ⟨Nat.succ_le_succ hle, fun hlt => ?_, fun m hm => ?_⟩
      · exact completes_cons_iff.2 (hstop (Nat.lt_of_succ_lt_succ hlt))
      -- The record was open when the strategy was probed, so no part is shorter than it.
      · cases m with
        | zero => exact fun hc => hr (completes_nil_iff.1 hc)
        | succ m => exact fun hc => hmin m (Nat.lt_of_succ_lt_succ hm) (completes_cons_iff.1 hc)

theorem run_isStop (h : Host) (chain : List Strategy) :
    IsStop h chain (run h .empty chain).value.probed := by
  obtain ⟨hle, hstop, hmin⟩ := run_probed h .empty chain
  exact ⟨hle, fun hlt => completes_empty_iff.1 (hstop hlt),
    fun m hm hr => hmin m hm (completes_empty_iff.2 hr)⟩

end Survey

namespace Locator

theorem locate_get (h : Host) (l : Locator) (s : Region) :
    (l.locate h).value.record.get s =
      Survey.firstUsable h (Survey.offered h l.chain) s := by
  change (Survey.run h .empty l.chain).value.record.get s = _
  rw [Survey.run_get, RegionMap.get_empty, Option.none_or]

theorem locate_get_isSome_iff {h : Host} {l : Locator} {s : Region} :
    ((l.locate h).value.record.get s).isSome = true ↔
      ∃ c ∈ Survey.offered h l.chain, Survey.Fits h s c := by
  rw [locate_get, Option.isSome_iff_ne_none, Ne, Survey.firstUsable_eq_none_iff, Classical.not_not]

theorem locate_probes (h : Host) (l : Locator) (i : Nat) :
    (l.locate h).value.probes[i]? =
      l.probes[i]?.map fun count =>
        if i < (Survey.run h .empty l.chain).value.probed then count + 1 else count := by
  change ((l.probes.take _).map (· + 1) ++ l.probes.drop _)[i]? = _
  generalize (Survey.run h .empty l.chain).value.probed = n
  by_cases hi : i < n
  · by_cases hl : i < l.probes.length
    · rw [List.getElem?_append_left (by simp; omega)]
      simp [hi, List.getElem?_take_of_lt]
    · rw [List.getElem?_eq_none (by simp; omega), List.getElem?_eq_none (by omega)]
      rfl
  · by_cases hl : n ≤ l.probes.length
    · rw [List.getElem?_append_right (by simp; omega)]
      have hlen : ((l.probes.take n).map (· + 1)).length = n := by simp [hl]
      rw [hlen, List.getElem?_drop, Nat.add_sub_cancel' (by omega)]
      simp [hi]
    · rw [List.getElem?_eq_none (by simp; omega), List.getElem?_eq_none (by omega)]
      rfl

end Locator
end InstallLocator
