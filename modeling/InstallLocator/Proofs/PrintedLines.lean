import InstallLocator.Proofs.JsonReport
import InstallLocator.Proofs.Provenance
import InstallLocator.Proofs.Splitting

/-!
# What the printed lines tell

The worldwide client has the first line, and each region one after it: the text
of its path, or nothing if it is unresolved. A path is printed as it is. So the
lines can be told apart as long as no path holds a line break of its own, and
never otherwise.
-/

set_option autoImplicit false

namespace InstallLocator

namespace Report

def lineTexts (r : InstallRecord) : List (List Char) :=
  [line r .worldwide, line r .worldwide, line r .china, line r .publicTest].map String.toList

theorem lines_toList (r : InstallRecord) : (lines r).toList = terminated '\n' (lineTexts r) := by
  rw [lines, String.toList_join]
  simp [terminated, lineTexts, Region.all]

theorem line_of_get {r : InstallRecord} {s : Region} {i : Install} (hi : r.get s = some i) :
    line r s = i.path.shown := by
  simp [line, InstallRecord.path?, hi]

theorem line_of_get_none {r : InstallRecord} {s : Region} (hn : r.get s = none) :
    line r s = "" := by
  simp [line, InstallRecord.path?, hn]

theorem newline_mem_line_iff {r : InstallRecord} {s : Region} :
    '\n' ∈ (line r s).toList ↔ ∃ i, r.get s = some i ∧ 0x0A ∈ i.path.bytes := by
  cases hr : r.get s with
  | none => simp [line_of_get_none hr]
  | some i => simp [line_of_get hr, Path.newline_mem_shown_iff]

theorem newline_mem_lineTexts_iff {r : InstallRecord} :
    (∀ t ∈ lineTexts r, '\n' ∉ t) ↔ ∀ s i, r.get s = some i → 0x0A ∉ i.path.bytes := by
  have hall : (∀ t ∈ lineTexts r, '\n' ∉ t) ↔ ∀ s, '\n' ∉ (line r s).toList := by
    constructor
    · intro h s
      cases s <;> exact h _ (by simp [lineTexts])
    · intro h t ht
      obtain ⟨text, htext, rfl⟩ := List.mem_map.1 ht
      simp only [List.mem_cons, List.not_mem_nil, or_false] at htext
      rcases htext with rfl | rfl | rfl | rfl <;> exact h _
  simp only [hall, newline_mem_line_iff, not_exists, not_and]

/-- What can be read off the printed lines of a record. -/
structure LinesTell (r : InstallRecord) : Prop where
  /-- There are four texts with a line break after each. -/
  text : (lines r).toList = terminated '\n' (lineTexts r)
  /-- The text of a resolved region is its path. -/
  path : ∀ s i, r.get s = some i → line r s = i.path.shown
  /-- An empty text means an unresolved region, and only that. -/
  empty_iff : ∀ s, line r s = "" ↔ r.get s = none
  /-- The JSON report has the same text, and null for the empty one. -/
  json : ∀ s, ∃ source, regionJson r s =
    .object [("server", .text s.mark),
      ("path", if line r s = "" then .null else .text (line r s)), ("source", source)]
  /-- Cutting the output at line breaks gives the four texts back exactly if no
  path holds a line break. -/
  split_iff : (lines r).toList.splitOn '\n' = lineTexts r ++ [[]] ↔
    ∀ s i, r.get s = some i → 0x0A ∉ i.path.bytes

theorem linesTell {r : InstallRecord} (hr : ∀ s i, r.get s = some i → i.path.bytes ≠ []) :
    LinesTell r := by
  have hempty : ∀ s, line r s = "" ↔ r.get s = none := by
    intro s
    cases hs : r.get s with
    | none => simp [line_of_get_none hs]
    | some i => simp [line_of_get hs, Path.shown_eq_empty_iff, hr s i hs]
  refine ⟨lines_toList r, fun s i => line_of_get, hempty, fun s => ?_, ?_⟩
  · cases hs : r.get s with
    | none =>
      rw [if_pos ((hempty s).2 hs), regionJson_of_get_none hs]
      exact ⟨_, rfl⟩
    | some i =>
      have hne : line r s ≠ "" := by
        rw [Ne, hempty, hs]
        exact Option.some_ne_none i
      rw [if_neg hne, regionJson_of_get hs, line_of_get hs]
      exact ⟨_, rfl⟩
  · rw [lines_toList, splitOn_terminated_iff, newline_mem_lineTexts_iff]

end Report

namespace Locator

theorem path_ne_nil_of_locate {h : Host} {l : Locator} {s : Region} {i : Install}
    (hi : (l.locate h).value.record.get s = some i) : i.path.bytes ≠ [] := by
  rw [locate_get] at hi
  exact (Survey.exists_of_firstUsable hi).2.1

/-- The lines tell the record before and after a survey: which regions are
resolved, with which path, and the same as the JSON report. They can be told
apart if and only if no path found holds a line break. -/
theorem lines_tell_record (h : Host) (chain : List Strategy) :
    Report.LinesTell (ofChain chain).record ∧
      Report.LinesTell ((ofChain chain).locate h).value.record := by
  constructor
  · refine Report.linesTell fun s i hi => ?_
    have hn : (ofChain chain).record.get s = none := RegionMap.get_empty s
    rw [hn] at hi
    cases hi
  · exact Report.linesTell fun s i => path_ne_nil_of_locate

/-- A directory `a`, line break, `b`: its path takes two lines, and what comes
after it is one line further down. -/
theorem lines_of_broken_name :
    let h : Host := ⟨FileTree.empty.put [0x61, 0x0A, 0x62] [] .directory, [],
      ⟨none, none, none, none⟩⟩
    let r := ((ofChain [.overrides [(.china, .ofText "/a\nb")]]).locate h).value.record
    r.get .china = some ⟨.ofText "/a\nb", "override"⟩ ∧
      (Report.lines r).toList.splitOn '\n' = [[], [], ['/', 'a'], ['b'], [], []] ∧
      (Report.lines r).toList.splitOn '\n' ≠ Report.lineTexts r ++ [[]] := by
  intro h r
  have hi : r.get .china = some ⟨.ofText "/a\nb", "override"⟩ := by decide
  have hw : r.get .worldwide = none := by decide
  have hp : r.get .publicTest = none := by decide
  have hl : (Report.lines r).toList = ['\n', '\n', '/', 'a', '\n', 'b', '\n', '\n'] := by
    rw [Report.lines_toList, Report.lineTexts, Report.line_of_get hi, Report.line_of_get_none hw,
      Report.line_of_get_none hp, Path.shown_ofText]
    decide
  have hs : (Report.lines r).toList.splitOn '\n' = [[], [], ['/', 'a'], ['b'], [], []] := by
    rw [hl]
    decide
  refine ⟨hi, hs, ?_⟩
  rw [hs]
  intro he
  have hlen := congrArg List.length he
  simp [Report.lineTexts] at hlen

end Locator
end InstallLocator
