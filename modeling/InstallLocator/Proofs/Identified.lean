import InstallLocator.GameInfo.Read
import InstallLocator.Proofs.Listing

/-!
# Identified directories

Whether a directory is identified depends on what its metadata file holds, and
on the path only through where it leads. So the parent of a walked metadata
file, which may be written shorter than the directory, is identified alike.
-/

set_option autoImplicit false

namespace InstallLocator

namespace GameInfo

theorem checkFile_eq_ok_iff {h : Host} {path : Path} :
    checkFile h path = .ok () ↔ ∃ e size, h.stat path = .ok e ∧ e.size? = some size ∧
      size ≤ Constants.maxGameInfoSize := by
  unfold checkFile
  cases hs : h.stat path with
  | error cause => cases cause <;> simp
  | ok e =>
    cases hz : e.size? with
    | none => simp [hz]
    | some size =>
      by_cases hl : Constants.maxGameInfoSize < size
      · simp [hz, hl, Nat.not_le.2 hl]
      · simp [hz, hl, Nat.not_lt.1 hl]

theorem readId_of_unchecked {h : Host} {path : Path} {e : Error}
    (hc : checkFile h path = .error e) : readId h path = .error e := by
  rw [readId, hc]
  rfl

theorem readId_of_checked {h : Host} {path : Path} (hc : checkFile h path = .ok ()) :
    readId h path = match h.read path with
      | .error cause => .error (.unreadable path cause)
      | .ok content =>
        match (idOf? (Utf8.decodeLossy content)).map String.ofList with
        | some id => .ok id
        | none => .error (.noId path) := by
  simp only [readId, hc, bind, Except.bind]
  cases h.read path with
  | error cause => rfl
  | ok content =>
    have hread : (Except.ok content : Except IoError Bytes).mapError (Error.unreadable path) =
        .ok content := rfl
    simp only [hread]
    cases idOf? (Utf8.decodeLossy content) <;> rfl

theorem readId_eq_ok_iff {h : Host} {path : Path} {id : String} :
    readId h path = .ok id ↔ ∃ content, h.stat path = .ok (.file content) ∧
      content.length ≤ Constants.maxGameInfoSize ∧
        (idOf? (Utf8.decodeLossy content)).map String.ofList = some id := by
  constructor
  · intro hr
    cases hc : checkFile h path with
    | error e => cases (readId_of_unchecked hc).symm.trans hr
    | ok _ =>
      obtain ⟨e, size, hs, hsize, hle⟩ := checkFile_eq_ok_iff.1 hc
      rw [readId_of_checked hc, Host.read_of_stat hs] at hr
      cases e <;> cases hsize
      · rename_i content
        refine ⟨content, hs, hle, ?_⟩
        simp only [Entry.read] at hr
        split at hr
        · rename_i hid
          rw [hid, Except.ok.inj hr]
        · cases hr
      · cases hr
  · rintro ⟨content, hs, hle, hid⟩
    have hc : checkFile h path = .ok () := checkFile_eq_ok_iff.2 ⟨_, _, hs, rfl, hle⟩
    rw [readId_of_checked hc, Host.read_of_stat hs]
    simp only [Entry.read, hid]

theorem identify_eq_ok_iff {h : Host} {directory : Path} {s : Region} :
    (identify h directory).value = .ok s ↔
      ∃ id, readId h (file directory) = .ok id ∧ Region.ofGameId? id = some s := by
  unfold identify
  cases hr : readId h (file directory) with
  | error e => simp [hr]
  | ok id => cases ho : Region.ofGameId? id <;> simp [hr, regionOf, ho]

theorem identify_of_stat {h : Host} {p q : Path} {s : Region}
    (hq : ∀ e, h.stat (file p) = .ok e → h.stat (file q) = .ok e)
    (hs : (identify h p).value = .ok s) : (identify h q).value = .ok s := by
  obtain ⟨id, hr, ho⟩ := identify_eq_ok_iff.1 hs
  obtain ⟨content, hc, hl, hid⟩ := readId_eq_ok_iff.1 hr
  exact identify_eq_ok_iff.2 ⟨id, readId_eq_ok_iff.2 ⟨content, hq _ hc, hl, hid⟩, ho⟩

end GameInfo

/-- The path without some slashes and `.` names at its end. -/
structure Path.Trims (q p : Path) : Prop where
  ne_nil : q.bytes ≠ []
  start : q.bytes <+: p.bytes
  names : ∃ k, p.names = q.names ++ List.replicate k Path.currentName

theorem Path.trims_trimmed {p : Path} (hp : p.bytes ≠ []) : p.trimmed.Trims p := by
  obtain ⟨cs, hcs⟩ := stem_ends hp
  refine ⟨?_, ?_, ?_⟩
  · have hstem : p.stem.reverse ≠ [] := List.reverse_ne_nil_iff.2 (by simp [hcs])
    exact List.reverse_ne_nil_iff.2 (trimEnd_ne_nil (p.lead_keeps p.isStart_stem hp) hstem)
  · have hstart : ∀ bs : Bytes, (trimEnd p.lead.length bs.reverse).reverse <+: bs := fun bs => by
      simpa using List.reverse_prefix.2 (trimEnd_suffix p.lead.length bs.reverse)
    unfold trimmed stem
    split
    · exact hstart p.bytes
    · have hlen : ¬p.bytes.reverse.length < p.lead.length := by
        have hle := p.lead_length_le
        have hpos := List.length_pos_iff.2 hp
        rw [List.length_reverse]
        omega
      rw [List.reverse_append, List.reverse_singleton, List.singleton_append, trimEnd,
        if_neg hlen, if_pos rfl]
      exact hstart p.bytes
  · obtain ⟨k, hk⟩ := names_trimEnd p.lead.length p.stem.reverse
    rw [List.reverse_reverse, names_stem hp] at hk
    exact ⟨k, hk⟩

namespace Path.Trims

open FileTree

variable {t : FileTree} {here l : Location} {p q : Path} {n : Name}

theorem stem_length (hq : q.Trims p) : q.stem.length ≤ p.stem.length := by
  have hle := hq.start.length_le
  have hp : p.bytes.length ≤ p.stem.length := (isStart_stem p).length_le
  rcases Nat.lt_or_eq_of_le hle with hlt | heq
  · have hs : q.stem.length ≤ q.bytes.length + 1 := by
      unfold stem
      split <;> simp
    omega
  · have hpq : q = p := congrArg Path.mk (hq.start.eq_of_length heq)
    exact Nat.le_of_eq (congrArg (fun r => r.stem.length) hpq)

theorem openable_join (hq : q.Trims p) (hn : slash ∉ n) (ho : (p.join ⟨n⟩).Openable) :
    (q.join ⟨n⟩).Openable := by
  obtain ⟨hnul, -, hlen⟩ := ho
  rw [join_bytes p hn] at hnul hlen
  refine ⟨?_, join_ne_nil hq.ne_nil hn, ?_⟩
  · rw [join_bytes q hn]
    intro h0
    rcases List.mem_append.1 h0 with hs | h0
    · have hb : 0 ∈ q.bytes := by
        unfold stem at hs
        split at hs
        · exact hs
        · simpa [slash] using hs
      exact hnul (List.mem_append_left _ ((isStart_stem p).subset (hq.start.subset hb)))
    · exact hnul (List.mem_append_right _ h0)
  · have hs := hq.stem_length
    rw [List.length_append] at hlen
    rw [join_bytes q hn, List.length_append]
    omega

theorem start_eq (hq : q.Trims p) : q.start here = p.start here := by
  simp only [Path.start, isAbsolute_of_start hq.ne_nil hq.start]

theorem resolve (hq : q.Trims p) (h : t.resolve here .followed p = .ok l)
    (hd : t.isDirectoryAt l = true) : t.resolve here .followed q = .ok l := by
  obtain ⟨k, hk⟩ := hq.names
  have ho := (resolve_eq_ok_iff.1 h).1.of_start hq.ne_nil hq.start
  have hf := follow_names_of_resolve h
  rw [hk] at hf
  exact resolve_of_follow_names ho (holdsDirectory_of_isDirectoryAt hd)
    (hq.start_eq ▸ follow_of_append_current hf)

theorem resolve_join {last : LastName} (hq : q.Trims p) (hn : slash ∉ n) (hne : n ≠ [])
    (h : t.resolve here last (p.join ⟨n⟩) = .ok l) :
    t.resolve here last (q.join ⟨n⟩) = .ok l := by
  obtain ⟨k, hk⟩ := hq.names
  have hp : p.bytes ≠ [] := fun h0 => hq.ne_nil (List.prefix_nil.1 (h0 ▸ hq.start))
  obtain ⟨ho, hf⟩ := resolve_eq_ok_iff.1 h
  rw [steps_join hp hn hne, FileTree.start_join hp hn, hk, follow_append_current k _ hne] at hf
  refine resolve_eq_ok_iff.2 ⟨hq.openable_join hn ho, ?_⟩
  rw [steps_join hq.ne_nil hn hne, FileTree.start_join hq.ne_nil hn, hq.start_eq]
  exact hf

end Path.Trims

theorem Host.stat_trimmed {h : Host} {p : Path} (hd : h.stat p = .ok .directory) :
    h.stat p.trimmed = .ok .directory := by
  obtain ⟨l, hl, hdir⟩ := stat_directory_iff.1 hd
  exact stat_directory_iff.2 ⟨l, (Path.trims_trimmed (ne_nil_of_stat hd)).resolve hl hdir, hdir⟩

theorem Host.list_trimmed {h : Host} {p : Path} {es : List (Name × Entry)}
    (hl : h.list p = .ok es) : h.list p.trimmed = .ok es := by
  have hp := ne_nil_of_stat (stat_of_list hl)
  obtain ⟨l, hr, hd, hes⟩ := list_eq_ok_iff.1 hl
  exact list_eq_ok_iff.2 ⟨l, (Path.trims_trimmed hp).resolve hr hd, hd, hes⟩

theorem GameInfo.identify_trimmed {h : Host} {p : Path} {s : Region} (hp : p.bytes ≠ [])
    (hs : (identify h p).value = .ok s) : (identify h p.trimmed).value = .ok s := by
  refine identify_of_stat (fun e he => ?_) hs
  obtain ⟨l, hl, hfind⟩ := Host.stat_eq_ok_iff.1 he
  exact Host.stat_eq_ok_iff.2
    ⟨l, (Path.trims_trimmed hp).resolve_join (by decide) (by decide) hl, hfind⟩

end InstallLocator
