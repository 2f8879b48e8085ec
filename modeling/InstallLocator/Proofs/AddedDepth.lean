import InstallLocator.Proofs.SectionReading
import InstallLocator.Settings.Load

/-!
# A depth added to a document

A document that sets no depth is given one more line that does. A depth within
the bounds is taken, and one above them costs a warning and nothing else. A
number below zero is of the wrong shape for a depth, and so it spoils the file:
with it every other setting is lost.
-/

set_option autoImplicit false

namespace InstallLocator

namespace Toml

/-- Pairs with one more at some place. -/
inductive Inserted (p : String × Item) : Pairs → Pairs → Prop
  | between (before after : Pairs) : Inserted p (before ++ after) (before ++ p :: after)

/-- A document with one more pair in its table of this name, which may be new. -/
inductive InsertedIn (name : String) (p : String × Item) : Pairs → Pairs → Prop
  | table (before after : Pairs) (kind : TableKind) {inner more : Pairs}
      (inserted : Inserted p inner more) :
      InsertedIn name p (before ++ (name, .table kind inner) :: after)
        (before ++ (name, .table kind more) :: after)
  | newTable (before after : Pairs) (kind : TableKind) :
      InsertedIn name p (before ++ after) (before ++ (name, .table kind [p]) :: after)

end Toml

namespace RawSettings

open Toml (Item)

def withDepth (s : RawSettings) (depth : Nat) : RawSettings := { s with maxDepth := some depth }

/-- Reads a part of a document that sets no depth, and then works the same
whatever the depth is. -/
def KeepsDepth (read : RawSettings → Except ShapeError RawSettings) : Prop :=
  ∀ s t, read s = .ok t → t.maxDepth = none →
    s.maxDepth = none ∧ ∀ depth, read (s.withDepth depth) = .ok (t.withDepth depth)

theorem keepsDepth_composes : Composes KeepsDepth where
  ok := by
    intro s t hs ht
    cases hs
    exact ⟨ht, fun _ => rfl⟩
  error e := by
    intro s t hs
    cases hs
  bind := by
    intro f g hf hg s t hs ht
    obtain ⟨u, hu, hrest⟩ := bind_eq_ok_iff.1 hs
    obtain ⟨hd, hkeep⟩ := hg u t hrest ht
    obtain ⟨hd, hstep⟩ := hf s u hu hd
    exact ⟨hd, fun depth => bind_eq_ok_iff.2 ⟨_, hstep depth, hkeep depth⟩⟩

theorem keepsDepth_field {α : Type} (name : String) (decode : Item → Except ShapeError α)
    {put : RawSettings → Option α → RawSettings}
    (hput : ∀ s x, (put s x).maxDepth = s.maxDepth)
    (hdepth : ∀ s x depth, put (s.withDepth depth) x = (put s x).withDepth depth) (item : Item) :
    KeepsDepth ((field name decode put).set item) := by
  intro s t hs ht
  obtain ⟨a, ha, rfl⟩ := map_eq_ok_iff.1 hs
  refine ⟨hput s (some a) ▸ ht, fun depth => map_eq_ok_iff.2 ⟨a, ha, ?_⟩⟩
  exact hdepth s (some a) depth

theorem keepsDepth_discovery {f : Field} (hf : f ∈ discoveryFields) (item : Item) :
    KeepsDepth (f.set item) := by
  simp only [discoveryFields, List.mem_cons, List.not_mem_nil, or_false] at hf
  rcases hf with rfl | rfl | rfl | rfl | rfl | rfl
  case inr.inr.inr.inr.inl =>
    intro s t hs ht
    obtain ⟨depth, -, rfl⟩ := map_eq_ok_iff.1 hs
    cases ht
  all_goals
    refine keepsDepth_field _ _ (fun _ _ => ?_) (fun _ _ _ => ?_) item
    · rfl
    · rfl

theorem keepsDepth_logging {f : Field} (hf : f ∈ loggingFields) (item : Item) :
    KeepsDepth (f.set item) := by
  cases List.mem_singleton.1 hf
  refine keepsDepth_field _ _ (fun _ _ => ?_) (fun _ _ _ => ?_) item
  · rfl
  · rfl

theorem keepsDepth_section {f : Field} (hf : f ∈ sections) (item : Item) :
    KeepsDepth (f.set item) := by
  simp only [sections, List.mem_cons, List.not_mem_nil, or_false] at hf
  rcases hf with rfl | rfl | rfl
  · exact keepsDepth_composes.setSection _ (fun f hf => keepsDepth_discovery hf) item
  · intro s t hs ht
    obtain ⟨ps, hps, rfl⟩ := map_eq_ok_iff.1 hs
    exact ⟨ht, fun depth => map_eq_ok_iff.2 ⟨ps, hps, rfl⟩⟩
  · exact keepsDepth_composes.setSection _ (fun f hf => keepsDepth_logging hf) item

theorem foldlM_exchange {α : Type} {f : RawSettings → α → Except ShapeError RawSettings}
    (hf : ∀ x, KeepsDepth (f · x)) {before mid more after : List α} {depth : Except ShapeError Nat}
    (hmid : ∀ u v, mid.foldlM f u = .ok v → v.maxDepth = none →
      more.foldlM f u = depth.map v.withDepth)
    {s t : RawSettings} (hs : (before ++ mid ++ after).foldlM f s = .ok t)
    (ht : t.maxDepth = none) :
    (before ++ more ++ after).foldlM f s = depth.map t.withDepth := by
  simp only [List.foldlM_append] at hs ⊢
  obtain ⟨v, hv, hafter⟩ := bind_eq_ok_iff.1 hs
  obtain ⟨u, hu, hv⟩ := bind_eq_ok_iff.1 hv
  obtain ⟨hd, hkeep⟩ := keepsDepth_composes.foldlM (fun x _ => hf x) v t hafter ht
  rw [hu]
  change more.foldlM f u >>= _ = _
  rw [hmid u v hv hd]
  cases depth with
  | error e => rfl
  | ok n => exact hkeep n

theorem setNamed_max_depth (s : RawSettings) (item : Item) :
    setNamed discoveryFields s ("max_depth", item) = item.toNatural.map s.withDepth :=
  rfl

theorem setNamed_inserted {inner more : Toml.Pairs} {item : Item}
    (hi : Toml.Inserted ("max_depth", item) inner more) {s t : RawSettings}
    (hs : inner.foldlM (setNamed discoveryFields) s = .ok t) (ht : t.maxDepth = none) :
    more.foldlM (setNamed discoveryFields) s = item.toNatural.map t.withDepth := by
  obtain ⟨before, after⟩ := hi
  have hkeep := fun p =>
    keepsDepth_composes.setNamed (fun f hf => keepsDepth_discovery (f := f) hf) p
  have hmid : ∀ u v, [].foldlM (setNamed discoveryFields) u = .ok v → v.maxDepth = none →
      [("max_depth", item)].foldlM (setNamed discoveryFields) u =
        item.toNatural.map v.withDepth := by
    intro u v hu _
    cases hu
    rw [List.foldlM_cons, setNamed_max_depth]
    cases item.toNatural <;> rfl
  have hs : (before ++ [] ++ after).foldlM (setNamed discoveryFields) s = .ok t := by
    rwa [List.append_nil]
  simpa using foldlM_exchange hkeep hmid hs ht

theorem setNamed_discovery (s : RawSettings) (kind : Toml.TableKind) (inner : Toml.Pairs) :
    setNamed sections s ("discovery", .table kind inner) =
      inner.foldlM (setNamed discoveryFields) s :=
  rfl

theorem ofPairs_table {before after inner more : Toml.Pairs} {kind : Toml.TableKind} {item : Item}
    (hi : Toml.Inserted ("max_depth", item) inner more) {raw : RawSettings}
    (hraw : ofPairs (before ++ ("discovery", .table kind inner) :: after) = .ok raw)
    (hd : raw.maxDepth = none) :
    ofPairs (before ++ ("discovery", .table kind more) :: after) =
      item.toNatural.map raw.withDepth := by
  have hkeep := fun p => keepsDepth_composes.setNamed (fun f hf => keepsDepth_section (f := f) hf) p
  have hmid : ∀ u v, [("discovery", Item.table kind inner)].foldlM (setNamed sections) u = .ok v →
      v.maxDepth = none → [("discovery", Item.table kind more)].foldlM (setNamed sections) u =
        item.toNatural.map v.withDepth := by
    intro u v hu hv
    rw [List.foldlM_cons, setNamed_discovery] at hu ⊢
    obtain ⟨w, hw, hu⟩ := bind_eq_ok_iff.1 hu
    cases hu
    rw [setNamed_inserted hi hw hv]
    cases item.toNatural <;> rfl
  have hs : (before ++ [("discovery", Item.table kind inner)] ++ after).foldlM (setNamed sections)
      .empty = .ok raw := by
    rwa [List.append_assoc]
  have := foldlM_exchange hkeep hmid hs hd
  rwa [List.append_assoc] at this

theorem ofPairs_emptyTable (before after : Toml.Pairs) (kind : Toml.TableKind) :
    ofPairs (before ++ ("discovery", .table kind []) :: after) = ofPairs (before ++ after) := by
  simp only [ofPairs, List.foldlM_append, List.foldlM_cons, setNamed_discovery]
  rfl

theorem ofPairs_insertedIn {pairs more : Toml.Pairs} {item : Item}
    (hi : Toml.InsertedIn "discovery" ("max_depth", item) pairs more) {raw : RawSettings}
    (hraw : ofPairs pairs = .ok raw) (hd : raw.maxDepth = none) :
    ofPairs more = item.toNatural.map raw.withDepth := by
  cases hi with
  | table before after kind inserted => exact ofPairs_table inserted hraw hd
  | newTable before after kind =>
    rw [← ofPairs_emptyTable before after kind] at hraw
    exact ofPairs_table (.between [] []) hraw hd

end RawSettings

namespace Settings

/-- What a refused depth is reported as. -/
def refusedDepth (n : Int) : String :=
  (ConfigError.invalidValue "discovery.max_depth" (toString n) acceptedDepths).message

def negativeDepth (n : Int) (origin : Path) : String :=
  (ConfigError.malformed origin
    (.shape (.value (Toml.Item.shown (.integer n)) "usize"))).message ++
    ". Using defaults. See config.example.toml for the expected format."

theorem ofRaw_withDepth_of_le {raw : RawSettings} (hd : raw.maxDepth = none) {depth : Nat}
    (hn : depth ≤ 8) :
    ofRaw (raw.withDepth depth) = ({ (ofRaw raw).1 with maxDepth := depth }, (ofRaw raw).2) := by
  have hjudge : judgeMaxDepth (raw.withDepth depth).maxDepth = ⟨depth, []⟩ := if_pos hn
  simp only [ofRaw, hjudge, hd]
  rfl

theorem ofRaw_withDepth_of_lt {raw : RawSettings} (hd : raw.maxDepth = none) {depth : Nat}
    (hn : 8 < depth) :
    ofRaw (raw.withDepth depth) = ((ofRaw raw).1, refusedDepth depth :: (ofRaw raw).2) := by
  have hjudge : judgeMaxDepth (raw.withDepth depth).maxDepth =
      ⟨Constants.defaultSearchDepth, [refusedDepth depth]⟩ := if_neg (Nat.not_le.2 hn)
  simp only [ofRaw, hjudge, hd]
  rfl

/-- A document without a depth is given one. Up to eight it is taken; above, it
costs one warning; below zero, it costs all settings of the document. -/
theorem parse_added_depth {text more : String} {pairs morePairs : Toml.Pairs} {raw : RawSettings}
    {n : Int} (origin : Path) (ht : Toml.parse text = some pairs)
    (hm : Toml.parse more = some morePairs)
    (hi : Toml.InsertedIn "discovery" ("max_depth", .integer n) pairs morePairs)
    (hraw : RawSettings.ofPairs pairs = .ok raw) (hd : raw.maxDepth = none) :
    (parse text origin).1.maxDepth = 3 ∧
      (0 ≤ n → n ≤ 8 → parse more origin =
        ({ (parse text origin).1 with maxDepth := n.toNat }, (parse text origin).2)) ∧
      (8 < n → parse more origin =
        ((parse text origin).1, refusedDepth n :: (parse text origin).2)) ∧
      (n < 0 → parse more origin = (default, [negativeDepth n origin])) := by
  have hparse : parse text origin = ofRaw raw := by
    simp only [parse, RawSettings.parse, ht, hraw]
    rfl
  have hmore := RawSettings.ofPairs_insertedIn hi hraw hd
  have htaken : ∀ depth : Nat, n = depth → parse more origin = ofRaw (raw.withDepth depth) := by
    rintro depth rfl
    simp only [parse, RawSettings.parse, hm, hmore]
    rfl
  rw [hparse]
  refine ⟨?_, fun hn hle => ?_, fun hlt => ?_, fun hneg => ?_⟩
  · simp only [ofRaw, hd]
    rfl
  · rw [htaken n.toNat (Int.toNat_of_nonneg hn).symm]
    exact ofRaw_withDepth_of_le hd (by omega)
  · obtain ⟨depth, rfl⟩ := Int.eq_ofNat_of_zero_le (show 0 ≤ n by omega)
    rw [htaken depth rfl]
    exact ofRaw_withDepth_of_lt hd (by omega)
  · obtain ⟨k, rfl⟩ := Int.eq_negSucc_of_lt_zero hneg
    simp only [parse, RawSettings.parse, hm, hmore]
    rfl

/-- With the registry left out, a depth below zero brings it back. -/
theorem parse_added_depth_registry :
    parse "[discovery]\nregistry = false\nmax_depth = -1\n" (Path.ofText "/c") =
      (default, [negativeDepth (-1) (Path.ofText "/c")]) := by
  have ht : Toml.parse "[discovery]\nregistry = false\n" =
      some [("discovery", .table .header [("registry", .boolean false)])] := by
    with_unfolding_all rfl
  have hm : Toml.parse "[discovery]\nregistry = false\nmax_depth = -1\n" =
      some [("discovery", .table .header
        [("registry", .boolean false), ("max_depth", .integer (-1))])] := by
    with_unfolding_all rfl
  have hi : Toml.InsertedIn "discovery" ("max_depth", .integer (-1))
      [("discovery", .table .header [("registry", .boolean false)])]
      [("discovery", .table .header
        [("registry", .boolean false), ("max_depth", .integer (-1))])] :=
    .table [] [] .header (.between [("registry", .boolean false)] [])
  have hraw : RawSettings.ofPairs
      [("discovery", .table .header [("registry", .boolean false)])] =
        .ok { RawSettings.empty with registry := some false } :=
    rfl
  exact (parse_added_depth (Path.ofText "/c") ht hm hi hraw rfl).2.2.2 (by decide)

/-- A depth below zero does not cost itself alone. -/
theorem parse_negative_depth_spoils :
    (parse "[discovery]\nregistry = false\n" (Path.ofText "/c")).1.useRegistry = false ∧
      (parse "[discovery]\nregistry = false\nmax_depth = -1\n" (Path.ofText "/c")).1.useRegistry =
        true := by
  decide +kernel

end Settings
end InstallLocator
