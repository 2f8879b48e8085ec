import InstallLocator.Proofs.StrategyEvents
import InstallLocator.Proofs.WriteOnce
import Mathlib.Algebra.BigOperators.Group.List.Basic
import Mathlib.Algebra.Ring.Nat
import Mathlib.Data.List.Forall2

/-!
# The log of a survey

A survey reports of each strategy it probes that it was probed or that it failed,
and gives one verdict on each of its candidates. The accepted ones are the
entries of the record. If strategies are left when the record is complete, the
last event names the first of them. The summary afterwards tells of the same
entries, in the order of the regions.
-/

set_option autoImplicit false

namespace InstallLocator

namespace Event

/-- The candidate that the event is a verdict on. -/
def judged? : Event → Option Candidate
  | alreadyResolved c => some c
  | candidateRejected c _ => some c
  | candidateAccepted c => some c
  | _ => none

/-- The entry that the event says was made. -/
def made? : Event → Option (Region × Install)
  | candidateAccepted c => some (c.region, ⟨c.path, c.source⟩)
  | _ => none

/-- The strategy whose probe ended, with candidates or not. -/
def ended? : Event → Option String
  | strategyProbed strategy _ => some strategy
  | strategyFailed strategy _ => some strategy
  | _ => none

def skipped? : Event → Option String
  | restSkipped next => some next
  | _ => none

def announced? : Event → Option Nat
  | strategyProbed _ candidates => some candidates
  | _ => none

/-- One of the three verdicts on a candidate. -/
inductive Verdict (c : Candidate) : Event → Prop
  | earlier : Verdict c (.alreadyResolved c)
  | rejected (problem : PathProblem) : Verdict c (.candidateRejected c problem)
  | accepted : Verdict c (.candidateAccepted c)

def heard (message : String) (events : List Event) : Nat :=
  events.countP fun e => e.message == message

def madeFields (x : Region × Install) : List (String × String) :=
  [("server", x.1.code), ("path", x.2.path.shown), ("strategy", x.2.source)]

/-- Events that are known by their messages may be counted by them. -/
theorem sum_heard {α : Type} {f : Event → Option α} (messages : List String)
    (hf : ∀ e : Event, (messages.map fun m => if e.message == m then 1 else 0).sum =
      if (f e).isSome then 1 else 0) (events : List Event) :
    (messages.map fun m => heard m events).sum = (events.filterMap f).length := by
  rw [List.length_filterMap_eq_countP]
  induction events with
  | nil => simp [heard]
  | cons e events ih =>
    simp only [heard, List.countP_cons] at ih ⊢
    rw [List.sum_map_add, ih, hf]

theorem heard_ended (events : List Event) :
    heard "Strategy probed" events + heard "Discovery strategy failed" events =
      (events.filterMap ended?).length :=
  sum_heard ["Strategy probed", "Discovery strategy failed"] (fun e => by cases e <;> rfl) events

theorem heard_judged (events : List Event) :
    heard "Candidate accepted" events + heard "Candidate path rejected" events +
        heard "Region already resolved by a higher-priority strategy" events =
      (events.filterMap judged?).length := by
  rw [Nat.add_assoc]
  exact sum_heard ["Candidate accepted", "Candidate path rejected",
    "Region already resolved by a higher-priority strategy"] (fun e => by cases e <;> rfl) events

theorem heard_made (events : List Event) :
    heard "Candidate accepted" events = (events.filterMap made?).length :=
  sum_heard ["Candidate accepted"] (fun e => by cases e <;> rfl) events

theorem fields_heard {α : Type} {f : Event → Option α} {shown : α → List (String × String)}
    {message : String}
    (hf : ∀ e : Event, (if e.message == message then some e.fields else none) = (f e).map shown)
    (events : List Event) :
    (events.filter fun e => e.message == message).map fields = (events.filterMap f).map shown := by
  rw [List.map_filterMap, ← List.filterMap_eq_map, List.filterMap_filter]
  exact congrArg (events.filterMap ·) (funext hf)

theorem fields_made (events : List Event) :
    (events.filter fun e => e.message == "Candidate accepted").map fields =
      (events.filterMap made?).map madeFields :=
  fields_heard (fun e => by cases e <;> rfl) events

theorem fields_skipped (events : List Event) :
    (events.filter fun e =>
        e.message == "All regions resolved; skipping remaining strategies").map fields =
      (events.filterMap skipped?).map fun next => [("skipped", next)] :=
  fields_heard (fun e => by cases e <;> rfl) events

theorem filterMap_ended_filter (events : List Event) :
    (events.filter isLocators).filterMap ended? = events.filterMap ended? := by
  rw [List.filterMap_filter]
  refine congrArg (events.filterMap ·) (funext fun e => ?_)
  cases e <;> rfl

theorem fields_announced (events : List Event) :
    (events.filterMap fun e => e.fields.lookup "candidates") =
      (events.filterMap announced?).map toString := by
  rw [List.map_filterMap]
  refine congrArg (events.filterMap ·) (funext fun e => ?_)
  cases e <;> rfl

theorem Verdict.judged {c : Candidate} {e : Event} (h : Verdict c e) : e.judged? = some c := by
  cases h <;> rfl

end Event

namespace InstallRecord

theorem insertFirst_entries {r : InstallRecord} {s : Region} (hs : r.get s = none) (i : Install) :
    (r.insertFirst s i).1.entries.Perm (r.entries ++ [(s, i)]) := by
  have hnew : (s, i) ∉ r.entries := by
    simp [RegionMap.mem_entries, hs]
  have hnodup : (r.entries ++ [(s, i)]).Nodup :=
    List.nodup_append.2 ⟨r.entries_nodup, List.nodup_singleton _, fun e he f hf hef =>
      hnew (List.mem_singleton.1 hf ▸ hef ▸ he)⟩
  refine (List.perm_ext_iff_of_nodup (entries_nodup _) hnodup).2 fun e => ?_
  obtain ⟨q, j⟩ := e
  rw [List.mem_append, List.mem_singleton, RegionMap.mem_entries, RegionMap.mem_entries,
    insertFirst_get]
  by_cases hq : s = q
  · subst hq
    simp [hs, eq_comm]
  · simp [hq, Ne.symm hq]

theorem perm_of_made_none (r : InstallRecord) {e : Event} (he : e.made? = none) :
    r.entries.Perm (r.entries ++ [e].filterMap Event.made?) := by
  rw [List.filterMap_cons_none he, List.filterMap_nil, List.append_nil]

end InstallRecord

namespace Survey

variable {h : Host} {s : Strategy} {a : List Event}

theorem accept_verdict (h : Host) (r : InstallRecord) (c : Candidate) :
    ∃ e, (accept h r c).events = [e] ∧ Event.Verdict c e ∧
      (accept h r c).value.entries.Perm (r.entries ++ [e].filterMap Event.made?) := by
  obtain ⟨-, heq⟩ | ⟨-, problem, heq⟩ | ⟨hopen, -, heq⟩ := accept_cases h r c <;> rw [heq]
  · exact ⟨_, rfl, .earlier, r.perm_of_made_none rfl⟩
  · exact ⟨_, rfl, .rejected problem, r.perm_of_made_none rfl⟩
  · exact ⟨_, rfl, .accepted, InstallRecord.insertFirst_entries hopen _⟩

theorem acceptAll_verdicts (h : Host) (r : InstallRecord) (cs : List Candidate) :
    List.Forall₂ Event.Verdict cs (acceptAll h r cs).events := by
  induction cs generalizing r with
  | nil => exact .nil
  | cons c cs ih =>
    obtain ⟨e, he, hverdict, -⟩ := accept_verdict h r c
    rw [acceptAll, he]
    exact .cons hverdict (ih _)

theorem acceptAll_entries (h : Host) (r : InstallRecord) (cs : List Candidate) :
    (acceptAll h r cs).value.entries.Perm
      (r.entries ++ (acceptAll h r cs).events.filterMap Event.made?) := by
  induction cs generalizing r with
  | nil => simp [acceptAll]
  | cons c cs ih =>
    obtain ⟨e, he, -, hentries⟩ := accept_verdict h r c
    rw [acceptAll, he, List.filterMap_append, ← List.append_assoc]
    exact (ih _).trans (hentries.append_right _)

/-- What a survey reports of a strategy it probes: that it failed, or that it has so
many candidates, and a verdict on each of them. -/
inductive Account (h : Host) (s : Strategy) : List Event → Prop
  | failed {e : ProbeError} (probe : (s.probe h).value = .error e) :
    Account h s [.strategyFailed s.name e]
  | probed {cs : List Candidate} {verdicts : List Event} (probe : (s.probe h).value = .ok cs)
    (each : List.Forall₂ Event.Verdict cs verdicts) :
    Account h s (.strategyProbed s.name cs.length :: verdicts)

theorem probe_account (h : Host) (r : InstallRecord) (s : Strategy) :
    ∃ a, (probe h r s).events = (s.probe h).events ++ a ∧ Account h s a ∧
      (probe h r s).value.entries.Perm (r.entries ++ a.filterMap Event.made?) := by
  cases hp : (s.probe h).value with
  | error e =>
    simp only [probe, hp]
    exact ⟨_, rfl, .failed hp, r.perm_of_made_none rfl⟩
  | ok cs =>
    simp only [probe, hp]
    exact ⟨_, rfl, .probed hp (acceptAll_verdicts h r cs), acceptAll_entries h r cs⟩

theorem forall_of_verdicts {P : Event → Prop} (hP : ∀ c e, Event.Verdict c e → P e)
    {cs : List Candidate} {verdicts : List Event}
    (hv : List.Forall₂ Event.Verdict cs verdicts) : ∀ e ∈ verdicts, P e := by
  induction hv with
  | nil => exact List.forall_mem_nil _
  | cons he _ ih => exact List.forall_mem_cons.2 ⟨hP _ _ he, ih⟩

theorem judged_of_verdicts {cs : List Candidate} {verdicts : List Event}
    (hv : List.Forall₂ Event.Verdict cs verdicts) : verdicts.filterMap Event.judged? = cs := by
  induction hv with
  | nil => rfl
  | cons he _ ih => rw [List.filterMap_cons_some he.judged, ih]

namespace Account

theorem judged (ha : Account h s a) : a.filterMap Event.judged? = s.candidates h := by
  unfold Strategy.candidates
  cases ha with
  | failed probe =>
    rw [probe]
    rfl
  | probed probe each =>
    rw [probe, List.filterMap_cons_none rfl]
    exact judged_of_verdicts each

theorem announced (ha : Account h s a) :
    (a.filterMap Event.announced?).sum = (s.candidates h).length := by
  unfold Strategy.candidates
  cases ha with
  | failed probe =>
    rw [probe]
    rfl
  | @probed cs _ probe each =>
    have hcount : (Event.strategyProbed s.name cs.length).announced? = some cs.length := rfl
    have hnone := forall_of_verdicts (P := fun e => e.announced? = none)
      (fun c e he => by cases he <;> rfl) each
    rw [probe, List.filterMap_cons_some hcount, List.filterMap_eq_nil_iff.2 hnone,
      List.sum_singleton]

theorem ended (ha : Account h s a) : a.filterMap Event.ended? = [s.name] := by
  cases ha with
  | failed probe => rfl
  | @probed cs _ probe each =>
    have hend : (Event.strategyProbed s.name cs.length).ended? = some s.name := rfl
    have hnone := forall_of_verdicts (P := fun e => e.ended? = none)
      (fun c e he => by cases he <;> rfl) each
    rw [List.filterMap_cons_some hend, List.filterMap_eq_nil_iff.2 hnone]

theorem skipped (ha : Account h s a) : a.filterMap Event.skipped? = [] := by
  cases ha with
  | failed probe => rfl
  | probed probe each =>
    have hnone := forall_of_verdicts (P := fun e => e.skipped? = none)
      (fun c e he => by cases he <;> rfl) each
    rw [List.filterMap_cons_none rfl, List.filterMap_eq_nil_iff.2 hnone]

theorem isLocators (ha : Account h s a) : ∀ e ∈ a, e.isLocators = true := by
  cases ha with
  | failed probe => exact List.forall_mem_singleton.2 rfl
  | probed probe each =>
    have hrest := forall_of_verdicts (P := fun e => e.isLocators = true)
      (fun c e he => by cases he <;> rfl) each
    exact List.forall_mem_cons.2 ⟨rfl, hrest⟩

end Account

variable {chain : List Strategy} {accounts : List (List Event)}

theorem filterMap_accounts {β : Type} {f : Event → Option β} {g : Strategy → List β}
    (hfg : ∀ s a, Account h s a → a.filterMap f = g s)
    (hall : List.Forall₂ (Account h) chain accounts) :
    accounts.flatten.filterMap f = chain.flatMap g := by
  induction hall with
  | nil => rfl
  | cons ha _ ih => rw [List.flatten_cons, List.filterMap_append, hfg _ _ ha, ih, List.flatMap_cons]

theorem announced_accounts (hall : List.Forall₂ (Account h) chain accounts) :
    (accounts.flatten.filterMap Event.announced?).sum = (offered h chain).length := by
  induction hall with
  | nil => rfl
  | cons ha _ ih =>
    rw [List.flatten_cons, List.filterMap_append, List.sum_append, ha.announced, ih,
      ← List.length_append]
    rfl

/-- The events of strategies, each of them with its account after what it reports
itself. -/
def told (h : Host) (chain : List Strategy) (accounts : List (List Event)) : List Event :=
  (chain.zipWith (fun s a => (s.probe h).events ++ a) accounts).flatten

def farewell (chain : List Strategy) (probed : Nat) : List Event :=
  (chain[probed]?.map fun s => .restSkipped s.name).toList

theorem run_accounts (h : Host) (r : InstallRecord) (chain : List Strategy) :
    ∃ accounts, List.Forall₂ (Account h) (chain.take (run h r chain).value.probed) accounts ∧
      (run h r chain).events = told h (chain.take (run h r chain).value.probed) accounts ++
        farewell chain (run h r chain).value.probed ∧
      (run h r chain).value.record.entries.Perm
        (r.entries ++ accounts.flatten.filterMap Event.made?) := by
  induction chain generalizing r with
  | nil => exact ⟨[], by simp [run], rfl, by simp [run]⟩
  | cons s rest ih =>
    by_cases hr : r.isComplete = true
    -- All that is reported is that `s` is left out.
    · rw [run, if_pos hr]
      exact ⟨[], .nil, rfl, by simp⟩
    · obtain ⟨a, hevents, haccount, hentries⟩ := probe_account h r s
      obtain ⟨accounts, hall, hrest, hmade⟩ := ih (probe h r s).value
      rw [run, if_neg hr]
      refine ⟨a :: accounts, .cons haccount hall, ?_, ?_⟩
      · simp only [hevents, hrest, told, farewell, List.take_succ_cons, List.zipWith_cons_cons,
          List.flatten_cons, List.getElem?_cons_succ, List.append_assoc]
      · rw [List.flatten_cons, List.filterMap_append, ← List.append_assoc]
        exact hmade.trans (hentries.append_right _)

/-- The accounts, and the event that leaves strategies out. -/
def ownEvents (chain : List Strategy) (probed : Nat) (accounts : List (List Event)) :
    List Event :=
  accounts.flatten ++ farewell chain probed

/-- Where no strategy reports anything in the locator's name, the accounts are what
is left if only the locator is heard. -/
theorem filter_told (hall : List.Forall₂ (Account h) chain accounts)
    (hkeep : ∀ s ∈ chain, s.KeepsToItself h) :
    (told h chain accounts).filter Event.isLocators = accounts.flatten := by
  induction hall with
  | nil => rfl
  | @cons s a rest more ha _ ih =>
    have hs : (s.probe h).events.filter Event.isLocators = [] :=
      List.filter_eq_nil_iff.2 fun e he => by
        simp [hkeep s List.mem_cons_self e he]
    have hrest := ih fun t ht => hkeep t (List.mem_cons_of_mem _ ht)
    rw [told] at hrest ⊢
    rw [List.zipWith_cons_cons, List.flatten_cons, List.filter_append, List.filter_append, hs,
      List.filter_eq_self.2 ha.isLocators, hrest, List.nil_append, List.flatten_cons]

theorem filter_farewell (chain : List Strategy) (n : Nat) :
    (farewell chain n).filter Event.isLocators = farewell chain n := by
  unfold farewell
  cases chain[n]? <;> rfl

/-- The events add up: one end of each probe, one verdict on each candidate, one
acceptance for each entry, and one event if strategies are left out. -/
structure Balanced (h : Host) (chain : List Strategy) (probed : Nat) (r : InstallRecord)
    (own : List Event) : Prop where
  ended : own.filterMap Event.ended? = (chain.take probed).map Strategy.name
  probes : Event.heard "Strategy probed" own + Event.heard "Discovery strategy failed" own = probed
  judged : own.filterMap Event.judged? = offered h (chain.take probed)
  verdicts : Event.heard "Candidate accepted" own + Event.heard "Candidate path rejected" own +
    Event.heard "Region already resolved by a higher-priority strategy" own =
      (own.filterMap Event.announced?).sum
  counts : (own.filterMap fun e => e.fields.lookup "candidates") =
    (own.filterMap Event.announced?).map toString
  made : (own.filterMap Event.made?).Perm r.entries
  shown : ((own.filter fun e => e.message == "Candidate accepted").map Event.fields).Perm
    (r.entries.map Event.madeFields)
  accepted : Event.heard "Candidate accepted" own = r.size
  skipped : own.filterMap Event.skipped? = (chain[probed]?.map Strategy.name).toList
  named : (own.filter fun e =>
      e.message == "All regions resolved; skipping remaining strategies").map Event.fields =
    (chain[probed]?.map fun s => [("skipped", s.name)]).toList

theorem filterMap_farewell {β : Type} {f : Event → Option β}
    (hlast : ∀ name, f (.restSkipped name) = none) (chain : List Strategy) (probed : Nat) :
    (farewell chain probed).filterMap f = [] := by
  unfold farewell
  cases chain[probed]? with
  | none => rfl
  | some s => exact List.filterMap_cons_none (hlast s.name)

theorem filterMap_ownEvents {β : Type} {f : Event → Option β} {g : Strategy → List β}
    (hfg : ∀ s a, Account h s a → a.filterMap f = g s)
    (hlast : ∀ name, f (.restSkipped name) = none)
    {probed : Nat} (hall : List.Forall₂ (Account h) (chain.take probed) accounts) :
    (ownEvents chain probed accounts).filterMap f = (chain.take probed).flatMap g := by
  rw [ownEvents, List.filterMap_append, filterMap_accounts hfg hall, filterMap_farewell hlast,
    List.append_nil]

theorem announced_ownEvents {probed : Nat}
    (hall : List.Forall₂ (Account h) (chain.take probed) accounts) :
    ((ownEvents chain probed accounts).filterMap Event.announced?).sum =
      (offered h (chain.take probed)).length := by
  rw [ownEvents, List.filterMap_append, filterMap_farewell fun _ => rfl, List.append_nil,
    announced_accounts hall]

theorem skipped_ownEvents {probed : Nat}
    (hall : List.Forall₂ (Account h) (chain.take probed) accounts) :
    (ownEvents chain probed accounts).filterMap Event.skipped? =
      (chain[probed]?.map Strategy.name).toList := by
  have hnone : accounts.flatten.filterMap Event.skipped? = [] := by
    rw [filterMap_accounts (g := fun _ => []) (fun _ _ ha => ha.skipped) hall]
    simp
  rw [ownEvents, List.filterMap_append, hnone, List.nil_append]
  unfold farewell
  cases chain[probed]? <;> rfl

theorem made_ownEvents (chain : List Strategy) (probed : Nat) (accounts : List (List Event)) :
    (ownEvents chain probed accounts).filterMap Event.made? =
      accounts.flatten.filterMap Event.made? := by
  rw [ownEvents, List.filterMap_append, filterMap_farewell fun _ => rfl, List.append_nil]

theorem balanced_ownEvents {probed : Nat} {r : InstallRecord} (hle : probed ≤ chain.length)
    (hall : List.Forall₂ (Account h) (chain.take probed) accounts)
    (hmade : r.entries.Perm (accounts.flatten.filterMap Event.made?)) :
    Balanced h chain probed r (ownEvents chain probed accounts) := by
  have hended : (ownEvents chain probed accounts).filterMap Event.ended? =
      (chain.take probed).map Strategy.name := by
    rw [filterMap_ownEvents (fun _ _ ha => ha.ended) (fun _ => rfl) hall, ← List.map_eq_flatMap]
  have hjudged : (ownEvents chain probed accounts).filterMap Event.judged? =
      offered h (chain.take probed) :=
    filterMap_ownEvents (fun _ _ ha => ha.judged) (fun _ => rfl) hall
  have hentries : ((ownEvents chain probed accounts).filterMap Event.made?).Perm r.entries := by
    rw [made_ownEvents]
    exact hmade.symm
  exact {
    ended := hended
    probes := by
      rw [Event.heard_ended, hended, List.length_map, List.length_take, Nat.min_eq_left hle]
    judged := hjudged
    verdicts := by rw [Event.heard_judged, hjudged, announced_ownEvents hall]
    counts := Event.fields_announced _
    made := hentries
    shown := by
      rw [Event.fields_made]
      exact hentries.map _
    accepted := by
      rw [Event.heard_made]
      exact hentries.length_eq
    skipped := skipped_ownEvents hall
    named := by
      rw [Event.fields_skipped, skipped_ownEvents hall]
      cases chain[probed]? <;> rfl }

end Survey

/-- The summary of these entries: a warning if there are none, else their number and
then each of them, in the order of the regions. -/
inductive Locator.Sums (made : List (Region × Install)) : List Event → Prop
  | nothing (none : made = []) : Sums made [.nothingFound]
  | installs {listed : List (Region × Install)} (some : made ≠ []) (all : listed.Perm made)
    (ordered : listed.Pairwise fun e f => e.1 < f.1) :
    Sums made (.installsFound made.length ::
      listed.map fun e => .installFound e.1 e.2.path e.2.source)

theorem Locator.sums_summary {l : Locator} {made : List (Region × Install)}
    (hmade : made.Perm l.record.entries) : Sums made l.summary := by
  unfold summary InstallRecord.isEmpty
  by_cases hempty : l.record.entries = []
  · rw [hempty]
    exact .nothing (List.perm_nil.1 (hempty ▸ hmade))
  · have hsome : made ≠ [] := fun hnil => hempty (List.nil_perm.1 (hnil ▸ hmade))
    rw [if_neg (by simpa using hempty), InstallRecord.size, ← hmade.length_eq]
    exact .installs hsome hmade.symm l.record.entries_ordered

theorem Locator.Sums.level {made : List (Region × Install)} {events : List Event}
    (hsums : Sums made events) :
    ∀ e ∈ events, e.level = if made = [] then .warn else .info := by
  cases hsums with
  | nothing none =>
    rw [if_pos none]
    exact List.forall_mem_singleton.2 rfl
  | installs some all ordered =>
    rw [if_neg some]
    exact List.forall_mem_cons.2 ⟨rfl, List.forall_mem_map.2 fun _ _ => rfl⟩

namespace Locator

/-- Taken apart into what the strategies report and the locator's own events, the
log of a survey is complete and balanced: the strategies up to the stop are
probed, once each, and the summary tells of the installs that were accepted. -/
structure Accounted (h : Host) (l : Locator) (probed : Nat) (accounts : List (List Event)) :
    Prop where
  stop : Survey.IsStop h l.chain probed
  probes : ∀ i, (l.locate h).value.probes[i]? =
    l.probes[i]?.map fun count => if i < probed then count + 1 else count
  each : List.Forall₂ (Survey.Account h) (l.chain.take probed) accounts
  events : (l.locate h).events =
    Survey.told h (l.chain.take probed) accounts ++ Survey.farewell l.chain probed
  balanced : Survey.Balanced h l.chain probed (l.locate h).value.record
    (Survey.ownEvents l.chain probed accounts)
  complete : probed < l.chain.length → (l.locate h).value.record.isComplete = true
  summary : Sums ((Survey.ownEvents l.chain probed accounts).filterMap Event.made?)
    (l.locate h).value.summary
  level : ∀ e ∈ (l.locate h).value.summary,
    e.level = if (l.locate h).value.record.entries = [] then .warn else .info
  own : (∀ s ∈ l.chain, s.KeepsToItself h) →
    (l.locate h).events.filter Event.isLocators = Survey.ownEvents l.chain probed accounts

theorem isComplete_of_stop {h : Host} {l : Locator} {n : Nat} (hn : Survey.IsStop h l.chain n)
    (hlt : n < l.chain.length) : (l.locate h).value.record.isComplete = true := by
  refine Survey.isComplete_iff.2 fun s => locate_get_isSome_iff.2 ?_
  obtain ⟨c, hc, hfits⟩ := hn.resolves hlt s
  obtain ⟨strategy, hs, hcs⟩ := List.mem_flatMap.1 hc
  exact ⟨c, List.mem_flatMap.2 ⟨strategy, List.mem_of_mem_take hs, hcs⟩, hfits⟩

theorem exists_accounted (h : Host) (l : Locator) :
    ∃ probed accounts, l.Accounted h probed accounts := by
  have hstop := Survey.run_isStop h l.chain
  obtain ⟨accounts, hall, hevents, hmade⟩ := Survey.run_accounts h .empty l.chain
  have hbalanced : Survey.Balanced h l.chain _ (l.locate h).value.record
      (Survey.ownEvents l.chain _ accounts) :=
    Survey.balanced_ownEvents hstop.le_length hall hmade
  refine ⟨_, accounts, {
    stop := hstop
    probes := locate_probes h l
    each := hall
    events := hevents
    balanced := hbalanced
    complete := isComplete_of_stop hstop
    summary := sums_summary hbalanced.made
    level := (sums_summary (.refl _)).level
    own := fun hkeep => ?_ }⟩
  change (Survey.run h .empty l.chain).events.filter Event.isLocators = _
  rw [hevents, List.filter_append, Survey.filter_farewell,
    Survey.filter_told hall fun s hs => hkeep s (List.mem_of_mem_take hs)]
  rfl

/-- The log of a survey accounts for every strategy and every candidate, and the
strategies that settings ask for add nothing in the locator's name. -/
theorem log_accounts :
    (∀ (h : Host) (l : Locator), ∃ probed accounts, l.Accounted h probed accounts) ∧
      ∀ (h : Host) (s : Settings) (home : Option Path),
        ∀ strategy ∈ (ofSettings s home).chain, strategy.KeepsToItself h :=
  ⟨exists_accounted, fun _ s home =>
    Settings.chain_keepsToItself (Event.outside_singleton rfl) s home⟩

/-- Surveying a chain gives each region the first usable candidate of the whole
chain, although only the strategies up to the stop are probed, each of them
once. They are those that the log names as probed or failed, where no strategy
reports in the locator's name. -/
theorem locate_first_usable (h : Host) (l : Locator) :
    (∀ s, (l.locate h).value.record.get s =
        Survey.firstUsable h (Survey.offered h l.chain) s) ∧
      (∀ s, (l.locate h).value.record.get s = none ↔
        ¬∃ c ∈ Survey.offered h l.chain, Survey.Fits h s c) ∧
      ∃ n, Survey.IsStop h l.chain n ∧
        (∀ i, (l.locate h).value.probes[i]? =
          l.probes[i]?.map fun count => if i < n then count + 1 else count) ∧
        ((∀ s ∈ l.chain, s.KeepsToItself h) →
          (l.locate h).events.filterMap Event.ended? =
            (l.chain.take n).map Strategy.name) := by
  obtain ⟨n, accounts, hn⟩ := exists_accounted h l
  refine ⟨locate_get h l, fun s => ?_, n, hn.stop, hn.probes, fun hkeep => ?_⟩
  · rw [locate_get, Survey.firstUsable_eq_none_iff]
  · rw [← Event.filterMap_ended_filter, hn.own hkeep]
    exact hn.balanced.ended

end Locator
end InstallLocator
