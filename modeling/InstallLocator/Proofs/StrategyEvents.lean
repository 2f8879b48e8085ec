import InstallLocator.Locator.Standard

/-!
# What strategies report

A strategy reports what it looks at and what it cannot use. None of its events is
one of the locator's, so what the log says in the locator's name comes from the
locator alone.
-/

set_option autoImplicit false

namespace InstallLocator

namespace Event

def isLocators (e : Event) : Bool :=
  match e.topic with
  | .locator => true
  | _ => false

/-- The locator reports none of these events. -/
def Outside (events : List Event) : Prop := ∀ e ∈ events, e.isLocators = false

theorem outside_nil : Outside [] := List.forall_mem_nil _

theorem outside_singleton {e : Event} (he : e.isLocators = false) : Outside [e] :=
  List.forall_mem_singleton.2 he

theorem Outside.append {es fs : List Event} (hes : Outside es) (hfs : Outside fs) :
    Outside (es ++ fs) :=
  List.forall_mem_append.2 ⟨hes, hfs⟩

theorem outside_gather {α : Type} {xs : List (Logged (List α))}
    (hxs : ∀ x ∈ xs, Outside x.events) : Outside (Logged.gather xs).events := by
  intro e he
  obtain ⟨x, hx, hex⟩ := List.mem_flatMap.1 he
  exact hxs x hx e hex

end Event

/-- The strategy reports nothing in the locator's name. -/
def Strategy.KeepsToItself (h : Host) (s : Strategy) : Prop :=
  Event.Outside (s.probe h).events

theorem GameInfo.outside_identify (h : Host) (d : Path) :
    Event.Outside (identify h d).events := by
  cases hread : readId h (file d) with
  | error e =>
    simp only [identify, hread]
    exact Event.outside_nil
  | ok id =>
    simp only [identify, hread]
    exact Event.outside_singleton rfl

namespace Strategy

theorem outside_identified (h : Host) (source : String) (d : Path) :
    Event.Outside (identified h source d).events := by
  have hread := GameInfo.outside_identify h d
  cases hv : (GameInfo.identify h d).value with
  | ok region =>
    simp only [identified, hv]
    exact hread
  | error fault =>
    simp only [identified, hv]
    exact hread.append (Event.outside_singleton rfl)

theorem outside_registryCandidate (h : Host) (publishers : List String) (e : UninstallEntry) :
    Event.Outside (registryCandidate h publishers e).events := by
  unfold registryCandidate
  split
  · exact Event.outside_singleton rfl
  · split
    · exact Event.outside_nil
    · split
      · exact outside_identified h _ _
      · exact Event.outside_nil

theorem outside_steamCandidate (h : Host) (d : Path) :
    Event.Outside (steamCandidate h d).events := by
  have hread := GameInfo.outside_identify h d
  unfold steamCandidate
  simp only
  split
  · exact hread
  · exact hread.append (Event.outside_singleton rfl)
  · exact hread.append (Event.outside_singleton rfl)

theorem outside_patternCandidates (h : Host) (pattern : String) :
    Event.Outside (patternCandidates h pattern).events := by
  unfold patternCandidates
  split
  · exact Event.outside_singleton rfl
  · refine Event.outside_gather (List.forall_mem_map.2 fun found _ => ?_)
    unfold matchCandidate
    split
    · exact Event.outside_singleton rfl
    · split
      · exact outside_identified h _ _
      · exact Event.outside_nil

theorem outside_visitCandidate (h : Host) (root : Path) (v : Search.Visit) :
    Event.Outside (visitCandidate h root v).events := by
  unfold visitCandidate
  split
  · exact Event.outside_singleton rfl
  · split
    · split
      · exact outside_identified h _ _
      · exact Event.outside_nil
    · exact Event.outside_nil

variable {h : Host}

theorem keepsToItself_overrides (paths : List (Region × Path)) :
    (overrides paths).KeepsToItself h :=
  Event.outside_nil

theorem keepsToItself_registry {source : UninstallSource}
    (hsource : Event.Outside (source.entries h).events) (publishers : List String) :
    (registry source publishers).KeepsToItself h := by
  cases hentries : (source.entries h).value with
  | error e =>
    simp only [KeepsToItself, registry, hentries]
    exact hsource
  | ok entries =>
    simp only [KeepsToItself, registry, hentries]
    exact hsource.append (Event.outside_gather
      (List.forall_mem_map.2 fun e _ => outside_registryCandidate h publishers e))

theorem keepsToItself_steam (app : Nat) : (steam app).KeepsToItself h := by
  have hlookup : Event.Outside (steamLookup h app).events := by
    unfold steamLookup
    split
    · exact Event.outside_nil
    · exact Event.outside_singleton rfl
  unfold KeepsToItself steam steamFrom
  simp only
  split
  · exact hlookup
  · exact hlookup.append (Event.outside_singleton rfl)
  · exact hlookup.append (outside_steamCandidate h _)

theorem keepsToItself_defaultPaths (patterns : List String) :
    (defaultPaths patterns).KeepsToItself h :=
  Event.outside_gather (List.forall_mem_map.2 fun pattern _ => outside_patternCandidates h pattern)

theorem keepsToItself_searchRoots (roots : List Path) (maxDepth : Nat) :
    (searchRoots roots maxDepth).KeepsToItself h := by
  refine Event.outside_gather (List.forall_mem_map.2 fun root _ => ?_)
  refine Event.outside_gather (List.forall_mem_cons.2 ⟨Event.outside_singleton rfl, ?_⟩)
  exact List.forall_mem_map.2 fun v _ => outside_visitCandidate h root v

end Strategy

/-- The strategies that settings ask for leave the locator's name alone where the
registry does. -/
theorem Settings.chain_keepsToItself {source : UninstallSource} {h : Host}
    (hsource : Event.Outside (source.entries h).events) (s : Settings) (home : Option Path) :
    ∀ strategy ∈ s.chain source Strategy.steamLookup home, strategy.KeepsToItself h := by
  have hnone : ∀ t ∈ ([] : List Strategy), t.KeepsToItself h := List.forall_mem_nil _
  simp only [chain, List.forall_mem_append]
  refine ⟨⟨⟨⟨?_, ?_⟩, ?_⟩, ?_⟩, ?_⟩
  · unfold overrideStrategies
    split
    · exact hnone
    · exact List.forall_mem_singleton.2 (Strategy.keepsToItself_overrides _)
  · unfold registryStrategies
    split
    · exact List.forall_mem_singleton.2 (Strategy.keepsToItself_registry hsource _)
    · exact hnone
  · unfold steamStrategies
    split
    · exact List.forall_mem_singleton.2 (Strategy.keepsToItself_steam _)
    · exact hnone
  · unfold defaultPathStrategies
    split
    · exact List.forall_mem_singleton.2 (Strategy.keepsToItself_defaultPaths _)
    · exact hnone
  · unfold searchRootStrategies
    split
    · exact hnone
    · exact List.forall_mem_singleton.2 (Strategy.keepsToItself_searchRoots _ _)

end InstallLocator
