import InstallLocator.Toml.Parser

/-!
# Documents without repeated keys

However the statements of a document go in and out of its tables, no table of the
tree they build has a key twice, at any depth: a key is only ever added where it
is not found, and a value is exchanged for another under the same key.
-/

set_option autoImplicit false

namespace InstallLocator.Toml

mutual

/-- No table of the value has a key twice. -/
inductive Item.Keyed : Item → Prop
  | text (s : String) : Item.Keyed (.text s)
  | integer (n : Int) : Item.Keyed (.integer n)
  | float (x : Binary64) : Item.Keyed (.float x)
  | boolean (b : Bool) : Item.Keyed (.boolean b)
  | moment : Item.Keyed .moment
  | array {items : List Item} (all : ∀ i ∈ items, Item.Keyed i) : Item.Keyed (.array items)
  | table (kind : TableKind) {pairs : Pairs} (keyed : Pairs.Keyed pairs) :
    Item.Keyed (.table kind pairs)
  | tables {elements : List Pairs} (all : ∀ ps ∈ elements, Pairs.Keyed ps) :
    Item.Keyed (.tables elements)

inductive Pairs.Keyed : Pairs → Prop
  | intro {pairs : Pairs} (nodup : (pairs.map Prod.fst).Nodup)
    (all : ∀ p ∈ pairs, Item.Keyed p.2) : Pairs.Keyed pairs

end

/-- What is made of pairs without repeated keys has none either. -/
def KeepsKeyed (f : Pairs → Option Pairs) : Prop :=
  ∀ ps qs, ps.Keyed → f ps = some qs → qs.Keyed

namespace Pairs

variable {ps qs : Pairs} {key p : String} {item : Item} {f : Pairs → Option Pairs}
  {path : List String}

theorem keyed_nil : Keyed [] :=
  ⟨List.nodup_nil, fun _ hp => absurd hp List.not_mem_nil⟩

theorem Keyed.nodup (h : ps.Keyed) : (ps.map Prod.fst).Nodup := by
  obtain ⟨nodup, -⟩ := h
  exact nodup

theorem Keyed.of_mem (h : ps.Keyed) {q : String × Item} (hq : q ∈ ps) : q.2.Keyed := by
  obtain ⟨-, all⟩ := h
  exact all q hq

theorem Keyed.not_mem_after {before after : Pairs} (h : Keyed (before ++ (key, item) :: after)) :
    key ∉ after.map Prod.fst := by
  have hn := h.nodup
  rw [List.map_append, List.map_cons] at hn
  exact (List.nodup_cons.1 (List.nodup_append.1 hn).2.1).1

theorem find?_mem (hf : find? key ps = some item) : (key, item) ∈ ps := by
  obtain ⟨q, hq, rfl⟩ := Option.map_eq_some_iff.1 hf
  have hk : q.1 = key := by simpa using List.find?_some hq
  exact hk ▸ List.mem_of_find?_eq_some hq

theorem not_mem_of_find? (hf : find? key ps = none) : key ∉ ps.map Prod.fst := by
  intro hk
  obtain ⟨q, hq, rfl⟩ := List.mem_map.1 hk
  have hne := List.find?_eq_none.1 (Option.map_eq_none_iff.1 hf) q hq
  simp at hne

theorem Keyed.find? (h : ps.Keyed) (hf : Pairs.find? key ps = some item) : item.Keyed :=
  h.of_mem (find?_mem hf)

theorem Keyed.concat (h : ps.Keyed) (hf : Pairs.find? key ps = none) (hi : item.Keyed) :
    Keyed (ps ++ [(key, item)]) := by
  refine ⟨?_, fun q hq => ?_⟩
  · rw [List.map_append, List.nodup_append]
    refine ⟨h.nodup, by simp, ?_⟩
    rintro a ha b hb rfl
    cases List.mem_singleton.1 hb
    exact not_mem_of_find? hf ha
  · rcases List.mem_append.1 hq with hq | hq
    · exact h.of_mem hq
    · cases List.mem_singleton.1 hq
      exact hi

theorem keys_replace (key : String) (item : Item) (ps : Pairs) :
    (replace key item ps).map Prod.fst = ps.map Prod.fst := by
  rw [replace, List.map_map]
  refine List.map_congr_left fun q _ => ?_
  by_cases hk : q.1 = key <;> simp [hk]

theorem Keyed.replace (h : ps.Keyed) (hi : item.Keyed) : Keyed (replace key item ps) := by
  refine ⟨keys_replace key item ps ▸ h.nodup, fun q hq => ?_⟩
  obtain ⟨r, hr, rfl⟩ := List.mem_map.1 hq
  split
  · exact hi
  · exact h.of_mem hr

theorem Keyed.filter (h : ps.Keyed) (keep : String × Item → Bool) :
    Keyed (List.filter keep ps) :=
  ⟨h.nodup.sublist (List.filter_sublist.map _), fun _ hq => h.of_mem (List.mem_filter.1 hq).1⟩

theorem keepsKeyed_add? (hi : item.Keyed) : KeepsKeyed (add? key item) := by
  intro ps qs h ha
  rw [add?] at ha
  split at ha
  · cases ha
  · rename_i hf
    cases ha
    exact h.concat (by simpa using hf) hi

theorem keyed_onLast (hf : KeepsKeyed f) {es ds : List Pairs} (h : ∀ ps ∈ es, ps.Keyed)
    (ho : onLast f es = some ds) : ∀ ps ∈ ds, Keyed ps := by
  rw [onLast] at ho
  split at ho
  · rename_i e he
    obtain ⟨d, hd, rfl⟩ := Option.map_eq_some_iff.1 ho
    intro ps hps
    rcases List.mem_append.1 hps with hps | hps
    · exact h ps (List.dropLast_sublist es |>.subset hps)
    · cases List.mem_singleton.1 hps
      exact hf e _ (h e (List.mem_of_getLast? he)) hd
  · cases ho

theorem Keyed.onTable (h : ps.Keyed) (hf : KeepsKeyed f) {kind : TableKind} {inner : Pairs}
    (ht : Pairs.find? p ps = some (.table kind inner))
    (hq : ((f inner).map fun inner => Pairs.replace p (.table kind inner) ps) = some qs) :
    qs.Keyed := by
  obtain ⟨more, hm, rfl⟩ := Option.map_eq_some_iff.1 hq
  cases h.find? ht with
  | table _ keyed => exact h.replace (.table kind (hf _ _ keyed hm))

theorem Keyed.onTables (h : ps.Keyed) (hf : KeepsKeyed f) {es : List Pairs}
    (ht : Pairs.find? p ps = some (.tables es))
    (hq : ((onLast f es).map fun es => Pairs.replace p (.tables es) ps) = some qs) :
    qs.Keyed := by
  obtain ⟨ds, hd, rfl⟩ := Option.map_eq_some_iff.1 hq
  cases h.find? ht with
  | tables all => exact h.replace (.tables (keyed_onLast hf all hd))

theorem Keyed.onNew (h : ps.Keyed) (hf : KeepsKeyed f) (kind : TableKind)
    (ht : Pairs.find? p ps = none)
    (hq : ((f []).map fun inner => ps ++ [(p, .table kind inner)]) = some qs) : qs.Keyed := by
  obtain ⟨inner, hi, rfl⟩ := Option.map_eq_some_iff.1 hq
  exact h.concat ht (.table kind (hf _ _ keyed_nil hi))

theorem keepsKeyed_assign (hi : item.Keyed) (path : List String) (direct : Bool) :
    KeepsKeyed (assign key item path direct) := by
  induction path generalizing direct with
  | nil =>
    intro ps qs h ha
    rw [assign] at ha
    split at ha
    · exact keepsKeyed_add? hi ps qs h ha
    · cases ha
  | cons p path ih =>
    intro ps qs h ha
    rw [assign] at ha
    split at ha
    · exact h.onNew (ih true) .dotted ‹_› ha
    · exact h.onTable (ih true) ‹_› ha
    · exact h.onTable (ih false) ‹_› ha
    · exact h.onTables (ih false) ‹_› ha
    · cases ha

theorem keepsKeyed_within (hf : KeepsKeyed f) (path : List String) :
    KeepsKeyed (within f path) := by
  induction path with
  | nil => exact hf
  | cons p path ih =>
    intro ps qs h ha
    rw [within] at ha
    split at ha
    · exact h.onNew ih .leading ‹_› ha
    · cases ha
    · exact h.onTable ih ‹_› ha
    · exact h.onTables ih ‹_› ha
    · cases ha

theorem Keyed.descend? (h : ps.Keyed) (hd : Pairs.descend? path ps = some qs) : qs.Keyed := by
  induction path generalizing ps with
  | nil =>
    cases hd
    exact h
  | cons p path ih =>
    rw [Pairs.descend?] at hd
    split at hd
    · cases hd
      exact keyed_nil
    · cases hd
    · cases h.find? ‹_› with
      | table _ keyed => exact ih keyed hd
    · cases h.find? ‹_› with
      | tables all =>
        obtain ⟨e, he, hd⟩ := Option.bind_eq_some_iff.1 hd
        exact ih (all e (List.mem_of_getLast? he)) hd
    · cases hd

end Pairs

def Statement.Keyed : Statement → Prop
  | .assign _ _ value => value.Keyed
  | .table _ _ => True
  | .element _ _ => True

namespace Draft

structure Keyed (d : Draft) : Prop where
  root : d.root.Keyed
  pairs : d.pairs.Keyed

variable {d e : Draft} {root ps : Pairs} {path : List String} {key : String}

theorem Keyed.close (h : d.Keyed) (hc : d.close = some ps) : ps.Keyed := by
  obtain ⟨root, target, pairs⟩ := d
  cases target with
  | root =>
    cases hc
    exact h.pairs
  | table path key =>
    exact Pairs.keepsKeyed_within (Pairs.keepsKeyed_add? (.table .header h.pairs)) path _ _
      h.root hc
  | element path key =>
    refine Pairs.keepsKeyed_within (fun ps qs hps hq => ?_) path _ _ h.root hc
    split at hq
    · rename_i es he
      cases hq
      cases hps.find? he with
      | tables all =>
        refine hps.replace (.tables fun e he => ?_)
        rcases List.mem_append.1 he with he | he
        · exact all e he
        · cases List.mem_singleton.1 he
          exact h.pairs
    · cases hq

theorem keyed_open? (h : root.Keyed) (ho : open? root path key = some e) : e.Keyed := by
  simp only [open?] at ho
  obtain ⟨parent, hp, ho⟩ := Option.bind_eq_some_iff.1 ho
  split at ho
  · obtain ⟨r, hr, ho⟩ := Option.bind_eq_some_iff.1 ho
    cases ho
    refine ⟨Pairs.keepsKeyed_within (fun ps qs hps hq => ?_) path _ _ h hr, Pairs.keyed_nil⟩
    cases hq
    exact hps
  · rename_i inner hf
    obtain ⟨r, hr, ho⟩ := Option.bind_eq_some_iff.1 ho
    cases ho
    refine ⟨Pairs.keepsKeyed_within (fun ps qs hps hq => ?_) path _ _ h hr, ?_⟩
    · cases hq
      exact hps.filter _
    · cases (h.descend? hp).find? hf with
      | table _ keyed => exact keyed
  · cases ho

theorem keyed_openElement? (h : root.Keyed) (ho : openElement? root path key = some e) :
    e.Keyed := by
  simp only [openElement?] at ho
  obtain ⟨r, hr, ho⟩ := Option.bind_eq_some_iff.1 ho
  cases ho
  refine ⟨Pairs.keepsKeyed_within (fun ps qs hps hq => ?_) path _ _ h hr, Pairs.keyed_nil⟩
  split at hq
  · cases hq
    exact hps.concat ‹_› (.tables fun _ he => absurd he List.not_mem_nil)
  · cases hq
    exact hps
  · cases hq

theorem Keyed.step (h : d.Keyed) {s : Statement} (hs : s.Keyed) (ht : d.step s = some e) :
    e.Keyed := by
  cases s with
  | assign path key value =>
    obtain ⟨ps, hp, rfl⟩ := Option.map_eq_some_iff.1 ht
    exact ⟨h.root, Pairs.keepsKeyed_assign hs path true _ _ h.pairs hp⟩
  | table path key =>
    obtain ⟨root, hr, ho⟩ := Option.bind_eq_some_iff.1 ht
    exact keyed_open? (h.close hr) ho
  | element path key =>
    obtain ⟨root, hr, ho⟩ := Option.bind_eq_some_iff.1 ht
    exact keyed_openElement? (h.close hr) ho

theorem Keyed.steps (h : d.Keyed) {ss : List Statement} (hs : ∀ s ∈ ss, s.Keyed)
    (ht : ss.foldlM Draft.step d = some e) : e.Keyed := by
  induction ss generalizing d with
  | nil =>
    cases ht
    exact h
  | cons s ss ih =>
    obtain ⟨c, hc, ht⟩ := Option.bind_eq_some_iff.1 ht
    exact ih (h.step (hs s List.mem_cons_self) hc)
      (fun t hmem => hs t (List.mem_cons_of_mem s hmem)) ht

end Draft

theorem assemble_keyed {ss : List Statement} {ps : Pairs} (hs : ∀ s ∈ ss, s.Keyed)
    (ha : assemble ss = some ps) : ps.Keyed := by
  obtain ⟨d, hd, hc⟩ := Option.bind_eq_some_iff.1 ha
  have hstart : Draft.start.Keyed := ⟨Pairs.keyed_nil, Pairs.keyed_nil⟩
  exact (hstart.steps hs hd).close hc

theorem braces_keyed {assignments : List (List String × String × Item)} {item : Item}
    (ha : ∀ a ∈ assignments, a.2.2.Keyed) (hb : braces assignments = some item) : item.Keyed := by
  obtain ⟨ps, hp, rfl⟩ := Option.map_eq_some_iff.1 hb
  suffices hfold : ∀ qs : Pairs, qs.Keyed →
      assignments.foldlM (fun ps a => Pairs.assign a.2.1 a.2.2 a.1 true ps) qs = some ps →
        Pairs.Keyed ps from
    .table .braces (hfold [] Pairs.keyed_nil hp)
  clear hp hb
  induction assignments with
  | nil =>
    intro qs hq hp
    cases hp
    exact hq
  | cons a rest ih =>
    intro qs hq hp
    obtain ⟨rs, hr, hp⟩ := Option.bind_eq_some_iff.1 hp
    exact ih (fun b hb => ha b (List.mem_cons_of_mem a hb)) rs
      (Pairs.keepsKeyed_assign (ha a List.mem_cons_self) _ true _ _ hq hr) hp

/-- Only values without repeated keys are read. -/
def ReadsKeyed (item : List Char → Read Item) : Prop :=
  ∀ cs v rest, item cs = some (v, rest) → v.Keyed

theorem integerItem?_keyed {n : Int} {v : Item} (h : integerItem? n = some v) : v.Keyed := by
  rw [integerItem?] at h
  split at h <;> cases h
  exact .integer n

theorem floatItem?_keyed {negative : Bool} {whole fraction : List Char} {exponent : Int} {v : Item}
    (h : floatItem? negative whole fraction exponent = some v) : v.Keyed := by
  simp only [floatItem?] at h
  split at h <;> cases h
  exact .float _

theorem based_keyed (base : Nat) (isDigit : Char → Bool) : ReadsKeyed (based base isDigit) := by
  intro cs v rest h
  obtain ⟨x, -, h⟩ := Option.bind_eq_some_iff.1 h
  obtain ⟨w, hw, h⟩ := Option.bind_eq_some_iff.1 h
  cases h
  exact integerItem?_keyed hw

theorem special_keyed (negative : Bool) : ReadsKeyed (special negative) := by
  intro cs v rest h
  unfold special at h
  split at h <;> cases h
  · exact .float _
  · exact .float _

theorem decimal_keyed (negative : Bool) : ReadsKeyed (decimal negative) := by
  intro cs v rest h
  obtain ⟨⟨whole, after⟩, -, h⟩ := Option.bind_eq_some_iff.1 h
  dsimp only at h
  split at h
  · obtain ⟨fraction, -, h⟩ := Option.bind_eq_some_iff.1 h
    obtain ⟨exponent, -, h⟩ := Option.bind_eq_some_iff.1 h
    obtain ⟨w, hw, h⟩ := Option.bind_eq_some_iff.1 h
    cases h
    exact floatItem?_keyed hw
  · obtain ⟨⟨exponent, after⟩, -, h⟩ := Option.bind_eq_some_iff.1 h
    cases exponent with
    | some exponent =>
      obtain ⟨w, hw, h⟩ := Option.bind_eq_some_iff.1 h
      cases h
      exact floatItem?_keyed hw
    | none =>
      obtain ⟨w, hw, h⟩ := Option.bind_eq_some_iff.1 h
      cases h
      exact integerItem?_keyed hw

theorem number_keyed : ReadsKeyed number := by
  intro cs v rest h
  unfold number at h
  split at h
  · cases h
    exact .moment
  split at h
  · exact based_keyed _ _ _ _ _ h
  · exact based_keyed _ _ _ _ _ h
  · exact based_keyed _ _ _ _ _ h
  · dsimp only at h
    split at h
    · rename_i r hr
      cases h
      exact special_keyed _ _ _ _ hr
    · exact decimal_keyed _ _ _ _ h

variable {item : List Char → Read Item} {cs rest : List Char}

theorem arrayItems_keyed (hi : ReadsKeyed item) {vs : List Item}
    (h : arrayItems item cs = some (vs, rest)) : ∀ v ∈ vs, v.Keyed := by
  fun_induction arrayItems item cs generalizing vs rest with
  | case2 cs v after hv | case3 cs v after hv =>
    cases h
    simpa using hi _ _ _ hv
  | case4 cs v after hv _ _ _ _ _ _ ih =>
    obtain ⟨⟨more, last⟩, hm, h⟩ := Option.map_eq_some_iff.1 h
    cases h
    exact List.forall_mem_cons.2 ⟨hi _ _ _ hv, ih hm⟩
  | case1 | case5 | case6 | case7 => cases h

theorem keyValue_keyed (hi : ReadsKeyed item) {a : List String × String × Item}
    (h : keyValue item cs = some (a, rest)) : a.2.2.Keyed := by
  obtain ⟨_, -, h⟩ := Option.bind_eq_some_iff.1 h
  obtain ⟨_, -, h⟩ := Option.bind_eq_some_iff.1 h
  obtain ⟨_, -, h⟩ := Option.bind_eq_some_iff.1 h
  obtain ⟨_, hv, h⟩ := Option.bind_eq_some_iff.1 h
  cases h
  exact hi _ _ _ hv

theorem braceItems_keyed (hi : ReadsKeyed item) {assignments : List (List String × String × Item)}
    (h : braceItems item cs = some (assignments, rest)) : ∀ a ∈ assignments, a.2.2.Keyed := by
  fun_induction braceItems item cs generalizing assignments rest with
  | case2 cs a after ha =>
    cases h
    simpa using keyValue_keyed hi ha
  | case3 cs a after ha _ _ _ ih =>
    obtain ⟨⟨more, last⟩, hm, h⟩ := Option.map_eq_some_iff.1 h
    cases h
    exact List.forall_mem_cons.2 ⟨keyValue_keyed hi ha, ih hm⟩
  | case1 | case4 | case5 => cases h

theorem value_keyed_of_below {depth : Nat} (below : ∀ d, depth = d + 1 → ReadsKeyed (value d)) :
    ReadsKeyed (value depth) := by
  intro cs v rest h
  unfold value at h
  split at h
  · obtain ⟨x, -, h⟩ := Option.map_eq_some_iff.1 h
    cases h
    exact .text _
  · obtain ⟨x, -, h⟩ := Option.map_eq_some_iff.1 h
    cases h
    exact .text _
  · -- an array
    split at h
    · cases h
    split at h
    · cases h
      exact .array fun _ hi => absurd hi List.not_mem_nil
    · obtain ⟨x, hx, h⟩ := Option.map_eq_some_iff.1 h
      cases h
      exact .array (arrayItems_keyed (below _ rfl) hx)
    · cases h
  · -- an inline table
    split at h
    · cases h
    split at h
    · cases h
      exact .table .braces Pairs.keyed_nil
    split at h
    · obtain ⟨t, ht, h⟩ := Option.map_eq_some_iff.1 h
      cases h
      exact braces_keyed (braceItems_keyed (below _ rfl) ‹_›) ht
    · cases h
  · cases h
    exact .boolean true
  · cases h
    exact .boolean false
  · exact number_keyed _ _ _ h

theorem value_keyed (depth : Nat) : ReadsKeyed (value depth) := by
  induction depth with
  | zero => exact value_keyed_of_below fun _ hd => absurd hd (Nat.succ_ne_zero _).symm
  | succ depth ih =>
    refine value_keyed_of_below fun d hd => ?_
    cases hd
    exact ih

theorem statement_keyed {s : Statement} (h : statement cs = some (s, rest)) : s.Keyed := by
  unfold statement at h
  split at h
  all_goals
    obtain ⟨⟨a, after⟩, ha, h⟩ := Option.map_eq_some_iff.1 h
    cases h
  · trivial
  · trivial
  · exact keyValue_keyed (value_keyed _) ha

theorem statements_keyed {ss : List Statement} (h : statements cs = some ss) :
    ∀ s ∈ ss, s.Keyed := by
  fun_induction statements cs generalizing ss with
  | case1 =>
    cases h
    exact fun s hs => absurd hs List.not_mem_nil
  | case2 =>
    rename_i ih
    exact ih h
  | case6 cs line _ _ s after hs =>
    rename_i ih
    obtain ⟨more, hm, rfl⟩ := Option.map_eq_some_iff.1 h
    exact List.forall_mem_cons.2 ⟨statement_keyed hs, ih hm⟩
  | case3 | case4 | case5 | case7 => cases h

/-- No table of a document has a key twice. -/
theorem parse_keyed {text : String} {pairs : Pairs} (h : parse text = some pairs) :
    pairs.Keyed := by
  obtain ⟨ss, hs, ha⟩ := Option.bind_eq_some_iff.1 h
  exact assemble_keyed (statements_keyed hs) ha

end InstallLocator.Toml
