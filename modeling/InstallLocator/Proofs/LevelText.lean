import InstallLocator.Proofs.SameShape
import InstallLocator.Proofs.SectionReading
import InstallLocator.Settings.Load

/-!
# The text of the log level

Documents that differ in the text of the log level alone are refused alike, or
they spell settings that differ in the log level alone.
-/

set_option autoImplicit false

namespace InstallLocator

namespace Toml

/-- Values of a section that differ in the text of its level alone, be it a table or
an array. -/
inductive LevelApart : Item → Item → Prop
  | table (kind : TableKind) (before after : Pairs) (a b : String) :
      LevelApart (.table kind (before ++ ("level", .text a) :: after))
        (.table kind (before ++ ("level", .text b) :: after))
  | array (after : List Item) (a b : String) :
      LevelApart (.array (.text a :: after)) (.array (.text b :: after))

/-- Documents that differ in the text of the log level alone. -/
inductive LoggingApart : Pairs → Pairs → Prop
  | between (before after : Pairs) {x y : Item} (level : LevelApart x y) :
      LoggingApart (before ++ ("logging", x) :: after) (before ++ ("logging", y) :: after)

end Toml

namespace RawSettings

open Toml (Item LevelApart LoggingApart)

def unlevelled (s : RawSettings) : RawSettings := { s with level := none }

/-- The same error, or settings that differ in their level alone. -/
def Alike (x y : Except ShapeError RawSettings) : Prop :=
  x.map unlevelled = y.map unlevelled

/-- Reads a part of a document whatever the level is, and says the same of all else. -/
def IgnoresLevel (read : Reading) : Prop :=
  ∀ s t, s.unlevelled = t.unlevelled → Alike (read s) (read t)

theorem Alike.bind {x y : Except ShapeError RawSettings} {read : Reading} (h : Alike x y)
    (hr : IgnoresLevel read) : Alike (x >>= read) (y >>= read) := by
  rcases map_eq_map_cases h with ⟨e, rfl, rfl⟩ | ⟨s, t, rfl, rfl, hst⟩
  · exact Eq.refl _
  · exact hr s t hst

theorem ignoresLevel_composes : Composes IgnoresLevel where
  ok _ _ hst := congrArg Except.ok hst
  error _ _ _ _ := Eq.refl _
  bind hf hg s t hst := (hf s t hst).bind hg

theorem ignoresLevel_put {α : Type} (decoded : Except ShapeError α)
    {put : RawSettings → α → RawSettings}
    (hput : ∀ s a, (put s a).unlevelled = (put s.unlevelled a).unlevelled) :
    IgnoresLevel fun s => decoded.map (put s) := by
  intro s t hst
  cases decoded with
  | error e => exact Eq.refl _
  | ok a =>
    have hput' : (put s a).unlevelled = (put t a).unlevelled := by rw [hput s, hst, ← hput t]
    exact congrArg Except.ok hput'

theorem ignoresLevel_discovery {f : Field} (hf : f ∈ discoveryFields) (item : Item) :
    IgnoresLevel (f.set item) := by
  simp only [discoveryFields, List.mem_cons, List.not_mem_nil, or_false] at hf
  rcases hf with rfl | rfl | rfl | rfl | rfl | rfl
  all_goals exact ignoresLevel_put _ fun _ _ => rfl

theorem ignoresLevel_logging {f : Field} (hf : f ∈ loggingFields) (item : Item) :
    IgnoresLevel (f.set item) := by
  cases List.mem_singleton.1 hf
  exact ignoresLevel_put _ fun _ _ => rfl

theorem ignoresLevel_section {f : Field} (hf : f ∈ sections) (item : Item) :
    IgnoresLevel (f.set item) := by
  simp only [sections, List.mem_cons, List.not_mem_nil, or_false] at hf
  rcases hf with rfl | rfl | rfl
  · exact ignoresLevel_composes.setSection _ (fun f hf => ignoresLevel_discovery hf) item
  · exact ignoresLevel_put _ fun _ _ => rfl
  · exact ignoresLevel_composes.setSection _ (fun f hf => ignoresLevel_logging hf) item

theorem foldlM_apart {α : Type} {f : RawSettings → α → Except ShapeError RawSettings}
    (hf : ∀ x, IgnoresLevel (f · x)) {x y : α} (hxy : ∀ s, Alike (f s x) (f s y))
    (before after : List α) (s : RawSettings) :
    Alike ((before ++ x :: after).foldlM f s) ((before ++ y :: after).foldlM f s) := by
  simp only [List.foldlM_append, List.foldlM_cons]
  cases before.foldlM f s with
  | error e => exact Eq.refl _
  | ok u => exact (hxy u).bind (ignoresLevel_composes.foldlM fun z _ => hf z)

theorem setNamed_level (s : RawSettings) (a : String) :
    setNamed loggingFields s ("level", .text a) = .ok { s with level := some a } :=
  rfl

theorem setNamed_logging_apart {x y : Item} (h : LevelApart x y) (s : RawSettings) :
    Alike (setNamed sections s ("logging", x)) (setNamed sections s ("logging", y)) := by
  cases h with
  | table kind before after a b =>
    have hfields := fun p =>
      ignoresLevel_composes.setNamed (fun f hf => ignoresLevel_logging (f := f) hf) p
    refine foldlM_apart hfields (fun u => ?_) before after s
    rw [setNamed_level, setNamed_level]
    exact Eq.refl _
  | array after a b => exact Eq.refl _

theorem ofPairs_apart {ps qs : Toml.Pairs} (h : LoggingApart ps qs) :
    Alike (ofPairs ps) (ofPairs qs) := by
  obtain ⟨before, after, level⟩ := h
  have hsections := fun p =>
    ignoresLevel_composes.setNamed (fun f hf => ignoresLevel_section (f := f) hf) p
  exact foldlM_apart hsections (fun s => setNamed_logging_apart level s) before after .empty

end RawSettings

namespace Settings

def unlevelled (s : Settings) : Settings := { s with logLevel := none }

theorem unlevelled_ofRaw (raw : RawSettings) :
    (ofRaw raw).1.unlevelled = (ofRaw raw.unlevelled).1.unlevelled :=
  rfl

theorem parse_apart {t u : String} {ps qs : Toml.Pairs} (ht : Toml.parse t = some ps)
    (hu : Toml.parse u = some qs) (h : Toml.LoggingApart ps qs) (origin : Path) :
    (parse u origin).1.unlevelled = (parse t origin).1.unlevelled := by
  simp only [parse, RawSettings.parse, ht, hu]
  rcases map_eq_map_cases (RawSettings.ofPairs_apart h) with ⟨e, hx, hy⟩ | ⟨r, s, hx, hy, hrs⟩
  · rw [hx, hy]
  · rw [hx, hy]
    change (ofRaw s).1.unlevelled = (ofRaw r).1.unlevelled
    rw [unlevelled_ofRaw, ← hrs, ← unlevelled_ofRaw]

theorem parse_malformed {t : String} (ht : Toml.parse t = none) (origin : Path) :
    (parse t origin).1 = default := by
  simp only [parse, RawSettings.parse, ht]

/-- Contents of a settings file that differ in the text of the log level alone, or
of which neither is a document. -/
inductive FilesApart : Bytes → Bytes → Prop
  | level {c d : Bytes} {t u : List Char} {ps qs : Toml.Pairs}
      (left : Utf8.decode? c = some t) (right : Utf8.decode? d = some u)
      (document : Toml.parse (String.ofList t) = some ps)
      (other : Toml.parse (String.ofList u) = some qs) (apart : Toml.LoggingApart ps qs) :
      FilesApart c d
  | malformed {c d : Bytes} {t u : List Char}
      (left : Utf8.decode? c = some t) (right : Utf8.decode? d = some u)
      (document : Toml.parse (String.ofList t) = none)
      (other : Toml.parse (String.ofList u) = none) : FilesApart c d
  | broken {c d : Bytes} (left : Utf8.decode? c = none) (right : Utf8.decode? d = none) :
      FilesApart c d

theorem load_apart {h g : Host} {p : Path} {c d : Bytes} (hc : h.stat p = .ok (.file c))
    (hd : g.stat p = .ok (.file d)) (apart : FilesApart c d) (explicit : Bool) :
    (load g p explicit).1.unlevelled = (load h p explicit).1.unlevelled := by
  have hleft : h.read p = .ok c := Host.read_of_stat hc
  have hright : g.read p = .ok d := Host.read_of_stat hd
  simp only [load, Host.exists?, Host.readText, hc, hd, hleft, hright, Except.isOk,
    Except.toBool, Bool.not_true, Bool.false_eq_true, if_false]
  cases apart with
  | level left right document other apart =>
    simp only [left, right]
    exact parse_apart document other apart p
  | malformed left right document other =>
    simp only [left, right, parse_malformed document, parse_malformed other]
  | broken left right => simp only [left, right]

end Settings
end InstallLocator
