import InstallLocator.Proofs.MetadataReads

/-!
# The order of listings

Two trees may hold the same entries and list their directories in different
orders. A search puts the names of a directory in order before it looks at them,
so it reports the same candidates in the same order on both, and the same
installs win.
-/

set_option autoImplicit false

namespace InstallLocator

namespace FileTree

/-- The same entry at each place, in whatever order directories are listed. -/
def SameEntries (t u : FileTree) : Prop := ∀ l, t.find? l = u.find? l

theorem sameEntries_of_perm {t u : FileTree} (h : t.entries.Perm u.entries) :
    t.SameEntries u := by
  intro l
  refine Option.ext fun e => ?_
  rw [find?_eq_some_iff, find?_eq_some_iff, h.mem_iff]

def reordered (t : FileTree) (es : List (Location × Entry)) (h : es.Perm t.entries) :
    FileTree where
  entries := es
  root_mem := h.mem_iff.2 t.root_mem
  nodup := (h.map Prod.fst).nodup_iff.2 t.nodup
  parent_mem n l e he := h.mem_iff.2 (t.parent_mem n l e (h.mem_iff.1 he))
  valid n l e he := t.valid n l e (h.mem_iff.1 he)

end FileTree

namespace Host

/-- The same machine, but for the order in which directories are listed. -/
structure SameEntries (h g : Host) : Prop where
  tree : h.tree.SameEntries g.tree
  here : h.here = g.here
  environment : h.environment = g.environment

variable {h g : Host}

theorem SameEntries.sameOutline (hs : h.SameEntries g) : h.SameOutline g :=
  ⟨fun l => congrArg (Option.map Entry.shape) (hs.tree l), hs.here, hs.environment⟩

theorem SameEntries.stat (hs : h.SameEntries g) (p : Path) : h.stat p = g.stat p := by
  simp only [Host.stat, entryAt, hs.sameOutline.resolve, hs.tree _]

theorem SameEntries.sameAt (hs : h.SameEntries g) (files : List Path) : h.SameAt g files :=
  fun p _ => hs.stat p

end Host

variable {h g : Host}

namespace Strategy

/-- The strategy searches directories: it expands patterns or walks search roots. -/
inductive Searches : Strategy → Prop
  | patterns (patterns : List String) : Searches (defaultPaths patterns)
  | roots (roots : List Path) (maxDepth : Nat) : Searches (searchRoots roots maxDepth)

theorem defaultPaths_congr (hs : h.SameEntries g) (patterns : List String) :
    (defaultPaths patterns).probe h = (defaultPaths patterns).probe g := by
  have hone : patternCandidates h = patternCandidates g :=
    funext fun _ => patternCandidates_congr hs.sameOutline (hs.sameAt _)
  simp only [defaultPaths, hone]

theorem searchRoots_congr (hs : h.SameEntries g) (roots : List Path) (maxDepth : Nat) :
    (searchRoots roots maxDepth).probe h = (searchRoots roots maxDepth).probe g := by
  have hone : ∀ depth, rootCandidates h depth = rootCandidates g depth := fun _ =>
    funext fun _ => rootCandidates_congr hs.sameOutline (hs.sameAt _)
  simp only [searchRoots, hone]

theorem Searches.probe_congr {s : Strategy} (searches : s.Searches) (hs : h.SameEntries g) :
    s.probe h = s.probe g := by
  cases searches with
  | patterns patterns => exact defaultPaths_congr hs patterns
  | roots roots maxDepth => exact searchRoots_congr hs roots maxDepth

end Strategy

namespace Survey

variable {chain : List Strategy}

theorem acceptAll_congr (hcheck : checkInstallDirectory h = checkInstallDirectory g)
    (r : InstallRecord) (cs : List Candidate) : acceptAll h r cs = acceptAll g r cs := by
  induction cs generalizing r with
  | nil => rfl
  | cons c cs ih => simp only [acceptAll, accept, hcheck, ih]

/-- A survey learns about the machine from its strategies and from the check of
their candidates, and from nothing else. -/
theorem run_congr (hcheck : checkInstallDirectory h = checkInstallDirectory g)
    (hprobe : ∀ s ∈ chain, s.probe h = s.probe g) (r : InstallRecord) :
    run h r chain = run g r chain := by
  induction chain generalizing r with
  | nil => rfl
  | cons s rest ih =>
    have hs : probe h r s = probe g r s := by
      simp only [probe, hprobe s List.mem_cons_self, acceptAll_congr hcheck]
    simp only [run, hs, ih fun t ht => hprobe t (List.mem_cons_of_mem s ht)]

end Survey

namespace Locator

theorem locate_congr (hs : h.SameEntries g) {l : Locator}
    (hprobe : ∀ s ∈ l.chain, s.probe h = s.probe g) : l.locate h = l.locate g := by
  have hcheck : checkInstallDirectory h = checkInstallDirectory g := by
    funext p
    simp only [checkInstallDirectory, hs.stat p]
  simp only [locate, Survey.run_congr hcheck hprobe]

/-- On machines that differ only in the order in which directories are listed, a
search reports the same candidates in the same order. A survey by searches ends
with the same installs and the same log, and a survey with any settings has the
same record. -/
theorem searches_ignore_listing_order (hs : h.SameEntries g) :
    (∀ patterns, (Strategy.defaultPaths patterns).probe h =
      (Strategy.defaultPaths patterns).probe g) ∧
    (∀ roots maxDepth, (Strategy.searchRoots roots maxDepth).probe h =
      (Strategy.searchRoots roots maxDepth).probe g) ∧
    (∀ l : Locator, (∀ s ∈ l.chain, s.Searches) → l.locate h = l.locate g) ∧
    ∀ (s : Settings) (home : Option Path),
      ((ofSettings s home).locate h).value.record = ((ofSettings s home).locate g).value.record :=
  ⟨Strategy.defaultPaths_congr hs, Strategy.searchRoots_congr hs,
    fun _ searches => locate_congr hs fun s hmem => (searches s hmem).probe_congr hs,
    fun _ _ => locate_record_congr hs.sameOutline (hs.sameAt _)⟩

def twoClients : FileTree :=
  let client (t : FileTree) (n : Name) : FileTree :=
    (t.put n [] .directory).put (Utf8.encode Constants.gameInfoFile.toList) [n]
      (.file (Utf8.encode "<id>WOWS.WW.PRODUCTION</id>".toList))
  client (client .empty [0x61]) [0x62]

def hostWithTwo : Host := ⟨twoClients, [], ⟨none, none, none, none⟩⟩

theorem list_root_hostWithTwo :
    hostWithTwo.list (.ofText "/") = .ok [([0x61], .directory), ([0x62], .directory)] := by
  have hresolve : hostWithTwo.tree.resolve hostWithTwo.here .followed (.ofText "/") = .ok [] := by
    with_unfolding_all rfl
  have hnames : hostWithTwo.tree.namesIn [] = [[0x61], [0x62]] := by decide +kernel
  have hsorted : [[0x61], [0x62]].mergeSort Name.le = [[0x61], [0x62]] :=
    List.mergeSort_of_pairwise (by decide)
  rw [Host.list_of_directory hresolve (by decide), FileTree.listing, hnames, hsorted]
  rfl

theorem list_client_hostWithTwo {n : Name} (hn : n = [0x61] ∨ n = [0x62]) :
    hostWithTwo.list (Path.child (.ofText "/") n) =
      .ok [(Utf8.encode Constants.gameInfoFile.toList,
        .file (Utf8.encode "<id>WOWS.WW.PRODUCTION</id>".toList))] := by
  have hresolve : hostWithTwo.tree.resolve hostWithTwo.here .followed
      (Path.child (.ofText "/") n) = .ok [n] := by
    rcases hn with rfl | rfl <;> with_unfolding_all rfl
  have hnames : hostWithTwo.tree.namesIn [n] = [Utf8.encode Constants.gameInfoFile.toList] := by
    rcases hn with rfl | rfl <;> decide +kernel
  have hdirectory : hostWithTwo.tree.isDirectoryAt [n] = true := by
    rcases hn with rfl | rfl <;> decide
  rw [Host.list_of_directory hresolve hdirectory, FileTree.listing, hnames,
    List.mergeSort_singleton]
  rcases hn with rfl | rfl <;> rfl

theorem offered_hostWithTwo :
    Survey.offered hostWithTwo [Strategy.searchRoots [.ofText "/"] 1] =
      [⟨.worldwide, .ofText "/a", "search-root"⟩, ⟨.worldwide, .ofText "/b", "search-root"⟩] := by
  have hroot : hostWithTwo.statLink (.ofText "/") = .ok .directory := by with_unfolding_all rfl
  have hbelow : Search.below hostWithTwo 2 (.ofText "/") =
      [[0x61], [0x62]].flatMap fun n =>
        [.ok (Path.child (.ofText "/") n, .directory),
          .ok ((Path.child (.ofText "/") n).child (Utf8.encode Constants.gameInfoFile.toList),
            .file (Utf8.encode "<id>WOWS.WW.PRODUCTION</id>".toList))] := by
    simp only [Search.below, list_root_hostWithTwo, list_client_hostWithTwo (Or.inl rfl),
      list_client_hostWithTwo (Or.inr rfl), List.flatMap_cons, List.flatMap_nil]
    rfl
  have hwalk : Search.walk hostWithTwo 2 (.ofText "/") =
      .ok (.ofText "/", .directory) :: Search.below hostWithTwo 2 (.ofText "/") := by
    simp only [Search.walk, hroot]
    rfl
  have hdepth : min 1 Constants.maxSearchDepth = 1 := rfl
  rw [Survey.offered_singleton, Strategy.candidates_searchRoots, List.flatMap_singleton, hdepth,
    Strategy.rootCandidates, hwalk, hbelow]
  with_unfolding_all rfl

/-- A root that is listed from its end finds the same client first. -/
theorem searches_ignore_listing_order_reversed :
    let h : Host := ⟨twoClients, [], ⟨none, none, none, none⟩⟩
    let g : Host := { h with tree := twoClients.reordered _ (List.reverse_perm _) }
    let l := ofChain [Strategy.searchRoots [.ofText "/"] 1]
    h.SameEntries g ∧ h.tree.namesIn [] = [[0x61], [0x62]] ∧ g.tree.namesIn [] = [[0x62], [0x61]] ∧
      (∀ s ∈ l.chain, s.Searches) ∧ l.locate h = l.locate g ∧
      (l.locate g).value.record.get .worldwide = some ⟨.ofText "/a", "search-root"⟩ := by
  intro h g l
  have hs : h.SameEntries g := ⟨FileTree.sameEntries_of_perm (List.reverse_perm _).symm, rfl, rfl⟩
  have hl : ∀ s ∈ l.chain, s.Searches := List.forall_mem_singleton.2 (.roots _ _)
  obtain ⟨-, -, hlocate, -⟩ := searches_ignore_listing_order hs
  have hfirst : (l.locate h).value.record.get .worldwide = some ⟨.ofText "/a", "search-root"⟩ := by
    rw [locate_get]
    change Survey.firstUsable hostWithTwo
      (Survey.offered hostWithTwo [Strategy.searchRoots [.ofText "/"] 1]) _ = _
    rw [offered_hostWithTwo]
    decide
  refine ⟨hs, by decide +kernel, by decide +kernel, hl, hlocate l hl, ?_⟩
  rw [← hlocate l hl]
  exact hfirst

end Locator
end InstallLocator
