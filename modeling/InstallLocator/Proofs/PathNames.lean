import InstallLocator.Path

/-!
# The names in a path

What a walk does with a path depends on the names between its slashes alone,
apart from a final slash. Joining a name to a path appends it to those names,
and the parent of a child has the names of the path, less any `.` at their end.
-/

set_option autoImplicit false

namespace InstallLocator.Path

theorem segments_ne_nil (bs : Bytes) : segments bs ≠ [] := by
  cases bs with
  | nil => simp [segments]
  | cons b bs =>
    rw [segments]
    split
    · simp
    · split <;> simp

theorem segments_append_slash (a b : Bytes) :
    segments (a ++ slash :: b) = segments a ++ segments b := by
  induction a with
  | nil => simp [segments]
  | cons c a ih =>
    rw [List.cons_append, segments, segments, ih]
    by_cases hc : c = slash
    · simp [hc]
    · obtain ⟨s, ss, hs⟩ := List.exists_cons_of_ne_nil (segments_ne_nil a)
      simp [hc, hs]

theorem segments_of_not_mem {n : Bytes} (hn : slash ∉ n) : segments n = [n] := by
  induction n with
  | nil => rfl
  | cons b bs ih =>
    simp only [List.mem_cons, not_or] at hn
    rw [segments, if_neg (Ne.symm hn.1), ih hn.2]

/-- The names between the slashes, the empty ones left out. -/
def names (p : Path) : List Name := (segments p.bytes).filter (· ≠ [])

theorem steps_eq_names (p : Path) :
    steps p.bytes = p.names ++ if p.bytes.getLast? = some slash then [finalSlash] else [] :=
  rfl

theorem isAbsolute_of_steps_eq_nil {p : Path} (hp : p.bytes ≠ []) (h : steps p.bytes = []) :
    p.isAbsolute = true := by
  obtain ⟨b, bs, hb⟩ := List.exists_cons_of_ne_nil hp
  by_cases hs : b = slash
  · simp [isAbsolute, hb, hs]
  · obtain ⟨s, ss, hrest⟩ := List.exists_cons_of_ne_nil (segments_ne_nil bs)
    simp [hb, steps, segments, hs, hrest] at h

theorem names_slash (bs : Bytes) : names ⟨bs ++ [slash]⟩ = names ⟨bs⟩ := by
  simp [names, segments_append_slash, segments]

theorem names_slash_append (bs : Bytes) {n : Name} (hn : slash ∉ n) (hne : n ≠ []) :
    names ⟨bs ++ slash :: n⟩ = names ⟨bs⟩ ++ [n] := by
  simp [names, segments_append_slash, segments_of_not_mem hn, hne]

theorem eq_append_slash {bs : Bytes} (h : bs.getLast? = some slash) :
    ∃ cs, bs = cs ++ [slash] :=
  List.getLast?_eq_some_iff.1 h

theorem not_isAbsolute_of_not_mem {n : Name} (hn : slash ∉ n) :
    (Path.mk n).isAbsolute = false := by
  cases n with
  | nil => rfl
  | cons b bs =>
    simp only [List.mem_cons, not_or] at hn
    simp [isAbsolute, Ne.symm hn.1]

/-- What stands before a name that is joined to a path. -/
def stem (p : Path) : Bytes :=
  if p.bytes = [] ∨ p.bytes.getLast? = some slash then p.bytes else p.bytes ++ [slash]

theorem join_bytes (p : Path) {n : Name} (hn : slash ∉ n) :
    (p.join ⟨n⟩).bytes = p.stem ++ n := by
  unfold join stem
  rw [not_isAbsolute_of_not_mem hn]
  by_cases h : p.bytes = [] ∨ p.bytes.getLast? = some slash <;> simp [h]

theorem stem_ends {p : Path} (hp : p.bytes ≠ []) : ∃ cs, p.stem = cs ++ [slash] := by
  unfold stem
  by_cases h : p.bytes.getLast? = some slash
  · rw [if_pos (Or.inr h)]
    exact eq_append_slash h
  · rw [if_neg (by simp [hp, h])]
    exact ⟨p.bytes, rfl⟩

theorem names_stem {p : Path} (hp : p.bytes ≠ []) : names ⟨p.stem⟩ = p.names := by
  unfold stem
  by_cases h : p.bytes.getLast? = some slash
  · rw [if_pos (Or.inr h)]
  · rw [if_neg (by simp [hp, h])]
    exact names_slash p.bytes

theorem isStart_stem (p : Path) : p.bytes <+: p.stem := by
  unfold stem
  split
  · exact List.prefix_rfl
  · exact List.prefix_append _ _

theorem join_nil (p : Path) : p.join ⟨[]⟩ = ⟨p.stem⟩ := by
  have h := join_bytes p (n := []) (by simp)
  rw [List.append_nil] at h
  exact congrArg Path.mk h

theorem stem_stem {p : Path} (hp : p.bytes ≠ []) : stem ⟨p.stem⟩ = p.stem := by
  obtain ⟨cs, hcs⟩ := stem_ends hp
  rw [stem, if_pos (Or.inr (by rw [hcs, List.getLast?_concat]))]

theorem join_nil_join {p : Path} (hp : p.bytes ≠ []) {n : Name} (hn : slash ∉ n) :
    (p.join ⟨[]⟩).join ⟨n⟩ = p.join ⟨n⟩ := by
  rw [join_nil]
  apply congrArg Path.mk
  change ((Path.mk p.stem).join ⟨n⟩).bytes = (p.join ⟨n⟩).bytes
  rw [join_bytes _ hn, join_bytes p hn, stem_stem hp]

theorem names_join {p : Path} (hp : p.bytes ≠ []) {n : Name} (hn : slash ∉ n)
    (hne : n ≠ []) : (p.join ⟨n⟩).names = p.names ++ [n] := by
  obtain ⟨cs, hcs⟩ := stem_ends hp
  have hb : (p.join ⟨n⟩).bytes = cs ++ slash :: n := by
    rw [join_bytes p hn, hcs, List.append_assoc]
    rfl
  have hc : names ⟨cs⟩ = p.names := by
    rw [← names_slash, ← hcs, names_stem hp]
  rw [← hc, ← names_slash_append cs hn hne]
  exact congrArg names (congrArg Path.mk hb)

theorem getLast?_join {p : Path} {n : Name} (hn : slash ∉ n) (hne : n ≠ []) :
    (p.join ⟨n⟩).bytes.getLast? ≠ some slash := by
  rw [join_bytes p hn, List.getLast?_append]
  cases h : n.getLast? with
  | none => exact absurd (List.getLast?_eq_none_iff.1 h) hne
  | some b =>
    intro hb
    rw [Option.some_or, Option.some.injEq] at hb
    exact hn (hb ▸ List.mem_of_getLast? h)

theorem steps_join {p : Path} (hp : p.bytes ≠ []) {n : Name} (hn : slash ∉ n)
    (hne : n ≠ []) : steps (p.join ⟨n⟩).bytes = p.names ++ [n] := by
  rw [steps_eq_names, if_neg (getLast?_join hn hne), List.append_nil, names_join hp hn hne]

theorem join_ne_nil {p : Path} (hp : p.bytes ≠ []) {n : Name} (hn : slash ∉ n) :
    (p.join ⟨n⟩).bytes ≠ [] := by
  obtain ⟨cs, hcs⟩ := stem_ends hp
  rw [join_bytes p hn, hcs]
  simp

theorem isAbsolute_of_start {p q : Path} (hp : p.bytes ≠ []) (h : p.bytes <+: q.bytes) :
    q.isAbsolute = p.isAbsolute := by
  obtain ⟨rest, hr⟩ := h
  obtain ⟨b, bs, hb⟩ := List.exists_cons_of_ne_nil hp
  simp [isAbsolute, ← hr, hb]

theorem isStart_join (p : Path) {n : Name} (hn : slash ∉ n) :
    p.bytes <+: (p.join ⟨n⟩).bytes := by
  rw [join_bytes p hn]
  exact (isStart_stem p).trans (List.prefix_append _ _)

theorem length_lt_join (p : Path) {n : Name} (hn : slash ∉ n) (hne : n ≠ []) :
    p.bytes.length < (p.join ⟨n⟩).bytes.length := by
  have hs := (isStart_stem p).length_le
  have hl := List.length_pos_iff.2 hne
  rw [join_bytes p hn, List.length_append]
  omega

theorem isAbsolute_join {p : Path} (hp : p.bytes ≠ []) {n : Name} (hn : slash ∉ n) :
    (p.join ⟨n⟩).isAbsolute = p.isAbsolute :=
  isAbsolute_of_start hp (isStart_join p hn)

theorem ne_nil_of_isAbsolute {p : Path} (hp : p.isAbsolute = true) : p.bytes ≠ [] := by
  intro h
  simp [isAbsolute, h] at hp

theorem isAbsolute_join_of_isAbsolute {p : Path} (hp : p.isAbsolute = true) (q : Path) :
    (p.join q).isAbsolute = true := by
  have hb := ne_nil_of_isAbsolute hp
  unfold join
  split
  · assumption
  · split
    · exact (isAbsolute_of_start hb (List.prefix_append _ _)).trans hp
    · exact (isAbsolute_of_start hb (List.prefix_append _ _)).trans hp

theorem trimEnd_ne_nil {keep : Nat} {bs : Bytes} (hk : 0 < keep ∨ bs.getLast? ≠ some slash)
    (hb : bs ≠ []) : trimEnd keep bs ≠ [] := by
  induction bs with
  | nil => exact absurd rfl hb
  | cons a rest ih =>
    rw [trimEnd]
    by_cases hr : rest = []
    · have ha : 0 < keep ∨ a ≠ slash := by simpa [hr] using hk
      rcases ha with hk | ha
      · simp [hr, hk]
      · simp [hr, ha]
    · have hrest := ih (by rwa [List.getLast?_cons_of_ne_nil hr] at hk) hr
      split
      · simp
      · split
        · exact hrest
        · split
          · exact hrest
          · simp

theorem trimEnd_suffix (keep : Nat) (bs : Bytes) : trimEnd keep bs <:+ bs := by
  induction bs with
  | nil => exact List.suffix_rfl
  | cons a rest ih =>
    have hr : trimEnd keep rest <:+ a :: rest := ih.trans (List.suffix_cons a rest)
    rw [trimEnd]
    split
    · exact List.suffix_rfl
    · split
      · exact hr
      · split
        · exact hr
        · exact List.suffix_rfl

theorem names_trimEnd (keep : Nat) (bs : Bytes) :
    ∃ k, names ⟨bs.reverse⟩ =
      names ⟨(trimEnd keep bs).reverse⟩ ++ List.replicate k currentName := by
  induction bs with
  | nil => exact ⟨0, by simp [trimEnd]⟩
  | cons a rest ih =>
    obtain ⟨k, hk⟩ := ih
    rw [trimEnd, List.reverse_cons]
    split
    · exact ⟨0, by simp⟩
    · split
      · rename_i ha
        exact ⟨k, by rw [ha, names_slash, hk]⟩
      · split
        · rename_i hd
          obtain ⟨cs, hcs⟩ := List.head?_eq_some_iff.1 hd.2
          refine ⟨k + 1, ?_⟩
          have hdot : names ⟨rest.reverse ++ [a]⟩ = names ⟨rest.reverse⟩ ++ [currentName] := by
            rw [hcs, List.reverse_cons, List.append_assoc, names_slash, hd.1]
            exact names_slash_append cs.reverse (by decide) (by decide)
          rw [hdot, hk, List.append_assoc, ← List.replicate_succ']
        · exact ⟨0, by simp⟩

def lead (p : Path) : List Component :=
  if p.isAbsolute then [.root]
  else if (segments p.bytes).head? = some currentName then [.current] else []

theorem components_eq_names (p : Path) : p.components =
    p.lead ++ (p.names.filter (· ≠ currentName)).map Component.ofName := by
  simp only [components, lead, names, List.filter_filter]
  congr 2
  apply List.filter_congr
  intro n _
  simp only [Bool.decide_and, Bool.and_comm]

theorem lead_slash_append (bs cs : Bytes) : lead ⟨bs ++ slash :: cs⟩ = lead ⟨bs ++ [slash]⟩ := by
  obtain ⟨n, ns, hs⟩ := List.exists_cons_of_ne_nil (segments_ne_nil bs)
  have habs : (Path.mk (bs ++ slash :: cs)).isAbsolute = (Path.mk (bs ++ [slash])).isAbsolute := by
    cases bs <;> rfl
  have hhead : (segments (bs ++ slash :: cs)).head? = (segments (bs ++ [slash])).head? := by
    rw [segments_append_slash, segments_append_slash, hs]
    rfl
  unfold lead
  rw [habs, hhead]

theorem lead_slash {bs : Bytes} (hb : bs ≠ []) : lead ⟨bs ++ [slash]⟩ = lead ⟨bs⟩ := by
  obtain ⟨n, ns, hs⟩ := List.exists_cons_of_ne_nil (segments_ne_nil bs)
  have habs : (Path.mk (bs ++ [slash])).isAbsolute = (Path.mk bs).isAbsolute :=
    isAbsolute_of_start hb (List.prefix_append _ _)
  have hhead : (segments (bs ++ [slash])).head? = (segments bs).head? := by
    rw [segments_append_slash, hs]
    rfl
  unfold lead
  rw [habs, hhead]

theorem lead_stem {p : Path} (hp : p.bytes ≠ []) : lead ⟨p.stem⟩ = p.lead := by
  unfold stem
  split
  · rfl
  · exact lead_slash hp

theorem lead_join {p : Path} (hp : p.bytes ≠ []) {n : Name} (hn : slash ∉ n) :
    (p.join ⟨n⟩).lead = p.lead := by
  obtain ⟨cs, hcs⟩ := stem_ends hp
  have hb : (p.join ⟨n⟩).bytes = cs ++ slash :: n := by
    rw [join_bytes p hn, hcs, List.append_assoc]
    rfl
  rw [← lead_stem hp, hcs, ← lead_slash_append cs n, ← hb]

theorem components_slash {bs : Bytes} (hb : bs ≠ []) :
    components ⟨bs ++ [slash]⟩ = components ⟨bs⟩ := by
  rw [components_eq_names, components_eq_names, lead_slash hb, names_slash]

theorem components_slash_dot (bs : Bytes) :
    components ⟨bs ++ [slash] ++ [dot]⟩ = components ⟨bs ++ [slash]⟩ := by
  have hnames : names ⟨bs ++ slash :: currentName⟩ = names ⟨bs⟩ ++ [currentName] :=
    names_slash_append bs (by decide) (by decide)
  rw [List.append_assoc]
  change components ⟨bs ++ slash :: currentName⟩ = _
  rw [components_eq_names, components_eq_names, lead_slash_append, hnames, names_slash]
  simp

theorem components_stem {p : Path} (hp : p.bytes ≠ []) : components ⟨p.stem⟩ = p.components := by
  unfold stem
  split
  · rfl
  · exact components_slash hp

theorem components_join {p : Path} (hp : p.bytes ≠ []) {n : Name} (hn : slash ∉ n)
    (hne : n ≠ []) (hcur : n ≠ currentName) :
    (p.join ⟨n⟩).components = p.components ++ [Component.ofName n] := by
  rw [components_eq_names, components_eq_names, lead_join hp hn, names_join hp hn hne]
  simp [hcur]

theorem fileName?_join {p : Path} (hp : p.bytes ≠ []) {n : Name} (hn : slash ∉ n)
    (hne : n ≠ []) (hcur : n ≠ currentName) (hpar : n ≠ parentName) :
    (p.join ⟨n⟩).fileName? = some n := by
  simp [fileName?, components_join hp hn hne hcur, Component.ofName, hcur, hpar]

theorem components_trimEnd {keep : Nat} {bs : Bytes}
    (hk : 0 < keep ∨ bs.getLast? ≠ some slash) :
    components ⟨(trimEnd keep bs).reverse⟩ = components ⟨bs.reverse⟩ := by
  induction bs with
  | nil => rfl
  | cons a rest ih =>
    rw [trimEnd, List.reverse_cons]
    by_cases hr : rest = []
    · have ha : 0 < keep ∨ a ≠ slash := by simpa [hr] using hk
      rcases ha with hk | ha
      · simp [hr, hk]
      · simp [hr, ha]
    · have hrest := ih (by rwa [List.getLast?_cons_of_ne_nil hr] at hk)
      have hrev : rest.reverse ≠ [] := List.reverse_ne_nil_iff.2 hr
      split
      · rw [List.reverse_cons]
      · split
        · rename_i ha
          rw [hrest, ha, components_slash hrev]
        · split
          · rename_i hd
            obtain ⟨cs, hcs⟩ := List.head?_eq_some_iff.1 hd.2
            rw [hrest, hd.1, hcs, List.reverse_cons, components_slash_dot]
          · rw [List.reverse_cons]

theorem trimEnd_name {keep : Nat} {n rest : Bytes} (hn : slash ∉ n) (hne : n ≠ [])
    (hcur : n ≠ currentName) : trimEnd keep (n.reverse ++ rest) = n.reverse ++ rest := by
  obtain ⟨a, as, ha⟩ := List.exists_cons_of_ne_nil (List.reverse_ne_nil_iff.2 hne)
  have hmem : ∀ b ∈ a :: as, b ≠ slash := fun b hb hs =>
    hn (List.mem_reverse.1 (ha ▸ hs ▸ hb))
  have hdot : ¬(a = dot ∧ (as ++ rest).head? = some slash) := by
    rintro ⟨rfl, hh⟩
    cases as with
    | nil => exact hcur (List.reverse_eq_cons_iff.1 ha)
    | cons b bs => exact hmem b (by simp) (by simpa using hh)
  rw [ha, List.cons_append, trimEnd, if_neg (hmem a (by simp)), if_neg hdot, ite_self]

theorem takeWhile_name {n rest : Bytes} (hn : slash ∉ n) :
    ((n.reverse ++ slash :: rest).takeWhile (· ≠ slash)).length = n.length := by
  have hall : ∀ b ∈ n.reverse, decide (b ≠ slash) = true := fun b hb => by
    simpa using fun hs : b = slash => hn (hs ▸ List.mem_reverse.1 hb)
  rw [List.takeWhile_append_of_pos hall]
  simp

/-- The path without the slashes and `.` names at its end, with a root or a `.`
that it starts with. -/
def trimmed (p : Path) : Path :=
  ⟨(trimEnd p.lead.length p.stem.reverse).reverse⟩

theorem lead_length (p : Path) : p.lead.length =
    if p.isAbsolute then 1 else if (segments p.bytes).head? = some currentName then 1 else 0 := by
  unfold lead
  split
  · rfl
  · split <;> rfl

theorem lead_length_le (p : Path) : p.lead.length ≤ 1 := by
  rw [lead_length]
  split
  · exact Nat.le_refl 1
  · split <;> decide

theorem lead_keeps (p : Path) {bs : Bytes} (h : p.bytes <+: bs) (hp : p.bytes ≠ []) :
    0 < p.lead.length ∨ bs.reverse.getLast? ≠ some slash := by
  rw [List.getLast?_reverse]
  by_cases ha : p.isAbsolute = true
  · exact Or.inl (by simp [lead, ha])
  · refine Or.inr fun hs => ha ?_
    rw [← isAbsolute_of_start hp (q := ⟨bs⟩) h]
    simpa [isAbsolute] using hs

/-- The parent of a child is the path, trimmed. -/
theorem parent?_join {p : Path} (hp : p.bytes ≠ []) {n : Name} (hn : slash ∉ n)
    (hne : n ≠ []) (hcur : n ≠ currentName) :
    (p.join ⟨n⟩).parent? = some p.trimmed := by
  obtain ⟨cs, hcs⟩ := stem_ends hp
  have hlen : ¬(p.join ⟨n⟩).components.length ≤ p.lead.length := by
    rw [components_join hp hn hne hcur, components_eq_names]
    simp only [List.length_append, List.length_singleton]
    omega
  have hrev : (p.join ⟨n⟩).bytes.reverse = n.reverse ++ slash :: cs.reverse := by
    rw [join_bytes p hn, hcs]
    simp
  have hsize : min (n.reverse ++ slash :: cs.reverse |>.takeWhile (· ≠ slash)).length
      ((n.reverse ++ slash :: cs.reverse).length - p.lead.length) = n.length := by
    have hle := p.lead_length_le
    rw [takeWhile_name hn, List.length_append, List.length_reverse, List.length_cons]
    omega
  unfold parent?
  simp only [← lead_length, lead_join hp hn]
  rw [if_neg hlen, hrev, trimEnd_name hn hne hcur, hsize, List.drop_left' List.length_reverse,
    trimmed, hcs, List.reverse_append]
  rfl

theorem trimmed_components {p : Path} (hp : p.bytes ≠ []) :
    p.trimmed.components = p.components := by
  rw [trimmed, components_trimEnd (p.lead_keeps p.isStart_stem hp), List.reverse_reverse,
    components_stem hp]

theorem isAbsolute_of_parent? {p q : Path} (hp : p.isAbsolute = true)
    (hq : p.parent? = some q) : q.isAbsolute = true := by
  unfold parent? at hq
  simp only [hp, if_true] at hq
  split at hq
  · split at hq
    · rename_i hc
      simp [components, hp] at hc
    · cases hq
  cases hq
  generalize hbody : trimEnd 1 p.bytes.reverse = body
  have hne : body ≠ [] := by
    have hbytes : p.bytes.reverse ≠ [] := List.reverse_ne_nil_iff.2 (ne_nil_of_isAbsolute hp)
    exact hbody ▸ trimEnd_ne_nil (Or.inl Nat.one_pos) hbytes
  have hlen := List.length_pos_iff.2 hne
  generalize hsize : min (body.takeWhile (· ≠ slash)).length (body.length - 1) = size
  have hdrop : body.drop size ≠ [] := by
    rw [Ne, List.drop_eq_nil_iff]
    omega
  have hkept : (trimEnd 1 (body.drop size)).reverse ≠ [] :=
    List.reverse_ne_nil_iff.2 (trimEnd_ne_nil (Or.inl Nat.one_pos) hdrop)
  have hstart : (trimEnd 1 (body.drop size)).reverse <+: p.bytes := by
    have hs := ((trimEnd_suffix 1 (body.drop size)).trans (List.drop_suffix size body)).trans
      (hbody ▸ trimEnd_suffix 1 p.bytes.reverse)
    simpa using List.reverse_prefix.2 hs
  exact (isAbsolute_of_start hkept hstart).symm.trans hp

end InstallLocator.Path
