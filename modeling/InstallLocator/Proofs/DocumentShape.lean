import InstallLocator.Proofs.OverrideOrder
import InstallLocator.Proofs.SectionReading

/-!
# Documents of the wrong shape

Some names are asked for in a document, and each asks for values of one shape.
A value that does not fit spoils the document wherever it stands, and nothing
else does. A section may be a table, a date or time counting as one, and its
values are found by their names; or an array, and they are found by their places.
-/

set_option autoImplicit false

namespace InstallLocator

open Toml (Item Pairs)

theorem exists_error_iff {ε α : Type} {x : Except ε α} :
    (∃ e, x = .error e) ↔ ∀ a, x ≠ .ok a := by
  cases x <;> simp

namespace Toml.Item

variable {item : Item}

theorem toBoolean_eq_ok_iff {b : Bool} : item.toBoolean = .ok b ↔ item = .boolean b := by
  cases item <;> simp [toBoolean]

theorem toText_eq_ok_iff {s : String} : item.toText = .ok s ↔ item = .text s := by
  cases item <;> simp [toText]

theorem toNatural_eq_ok_iff {n : Nat} : item.toNatural = .ok n ↔ item = .integer n := by
  cases item with
  | integer i =>
    rw [toNatural, integer.injEq]
    split
    · rw [Except.ok.injEq]
      omega
    · simp only [reduceCtorEq, false_iff]
      omega
  | _ => simp [toNatural]

theorem toTexts_eq_ok_iff {ts : List String} :
    item.toTexts = .ok ts ↔ item.elements? = some (ts.map .text) := by
  unfold toTexts
  cases item.elements? with
  | none => simp
  | some items => rw [Option.some_inj, mapM_eq_ok_iff fun _ _ => toText_eq_ok_iff]

end Toml.Item

namespace RawSettings

/-- A name, and what is wrong with a value under it. -/
abbrev Asked := String × (Item → Prop)

def NoBoolean (item : Item) : Prop := ∀ b, item ≠ .boolean b

def NoText (item : Item) : Prop := ∀ s, item ≠ .text s

/-- Fractions and negative numbers do not count either. -/
def NoNatural (item : Item) : Prop := ∀ n : Nat, item ≠ .integer n

def NoTexts (item : Item) : Prop := ∀ ts : List String, item.elements? ≠ some (ts.map .text)

def NoTextTable (item : Item) : Prop :=
  ∀ es : List (String × String), item.pairs? ≠ some (es.map Toml.entry)

/-- One of the pairs, wherever it stands, is asked for and wrong. -/
def Misfit (asked : List Asked) (pairs : Pairs) : Prop :=
  ∃ name value wrong, (name, value) ∈ pairs ∧ (name, wrong) ∈ asked ∧ wrong value

inductive SectionMisfit (asked : List Asked) (item : Item) : Prop
  | kind (no_table : item.pairs? = none) (no_array : item.elements? = none)
  | named {pairs : Pairs} (table : item.pairs? = some pairs) (fault : Misfit asked pairs)
  | placed {items : List Item} {name : String} {wrong : Item → Prop} {value : Item}
    (no_table : item.pairs? = none) (array : item.elements? = some items)
    (place : ((name, wrong), value) ∈ asked.zip items) (fault : wrong value)

def discoveryAsked : List Asked :=
  [("registry", NoBoolean), ("steam", NoBoolean), ("default_paths", NoBoolean),
   ("search_roots", NoTexts), ("max_depth", NoNatural), ("publishers", NoTexts)]

def loggingAsked : List Asked := [("level", NoText)]

def documentAsked : List Asked :=
  [("discovery", SectionMisfit discoveryAsked), ("overrides", NoTextTable),
   ("logging", SectionMisfit loggingAsked)]

/-- Whether the reading fails has nothing to do with what was read before. -/
def Fails (read : Reading) (wrong : Prop) : Prop := ∀ s, (∃ e, read s = .error e) ↔ wrong

namespace Fails

variable {f g : Reading} {P Q : Prop}

theorem ok : Fails .ok False := fun s => by simp

theorem error (e : ShapeError) : Fails (fun _ => .error e) True := fun _ => by simp

theorem congr (hf : Fails f P) (h : P ↔ Q) : Fails f Q := fun s => (hf s).trans h

theorem bind (hf : Fails f P) (hg : Fails g Q) : Fails (fun s => f s >>= g) (P ∨ Q) := by
  intro s
  rw [← hf s, ← hg s]
  cases hfs : f s with
  | ok t =>
    rw [hg s, ← hg t]
    simp [Bind.bind, Except.bind, hfs]
  | error e => simp [Bind.bind, Except.bind, hfs]

theorem foldlM {α : Type} {f : RawSettings → α → Except ShapeError RawSettings}
    {wrong : α → Prop} {xs : List α} (hf : ∀ x ∈ xs, Fails (f · x) (wrong x)) :
    Fails (fun s => xs.foldlM f s) (∃ x ∈ xs, wrong x) := by
  induction xs with
  | nil => exact ok.congr (by simp)
  | cons x xs ih =>
    simp only [List.foldlM_cons]
    refine (bind (hf x List.mem_cons_self) (ih fun y hy => ?_)).congr (by simp)
    exact hf y (List.mem_cons_of_mem x hy)

end Fails

def Field.Asks (f : Field) (a : Asked) : Prop :=
  f.name = a.1 ∧ ∀ item, Fails (f.set item) (a.2 item)

theorem asks_field {α : Type} {name : String} {decode : Item → Except ShapeError α}
    {put : RawSettings → Option α → RawSettings} {encode : α → Item → Prop}
    (h : ∀ item a, decode item = .ok a ↔ encode a item) :
    (field name decode put).Asks (name, fun item => ∀ a, ¬encode a item) := by
  refine ⟨rfl, fun item s => ?_⟩
  refine Iff.trans ?_ (exists_error_iff.trans (forall_congr' fun a => not_congr (h item a)))
  change (∃ e, (decode item).map _ = .error e) ↔ _
  cases decode item <;> simp [Except.map]

variable {fields : List Field} {asked : List Asked}

theorem setNamed_cons (f : Field) (fields : List Field) (s : RawSettings) (p : String × Item) :
    setNamed (f :: fields) s p =
      if f.name = p.1 then f.set p.2 s else setNamed fields s p := by
  by_cases h : f.name = p.1 <;> simp [setNamed, h]

theorem fails_setNamed (h : List.Forall₂ Field.Asks fields asked)
    (hn : (asked.map Prod.fst).Nodup) (p : String × Item) :
    Fails (setNamed fields · p) (∃ wrong, (p.1, wrong) ∈ asked ∧ wrong p.2) := by
  induction h with
  | nil => exact Fails.ok.congr (by simp)
  | @cons f a fields asked hfa _ ih =>
    obtain ⟨name, wrong⟩ := a
    obtain ⟨rfl, hset⟩ := hfa
    obtain ⟨hout, hn⟩ := List.nodup_cons.1 hn
    intro s
    simp only [setNamed_cons]
    split
    · rename_i hp
      rw [hset p.2 s]
      constructor
      · exact fun hw => ⟨wrong, by simp [hp], hw⟩
      · rintro ⟨other, hmem, hw⟩
        rcases List.mem_cons.1 hmem with heq | hmem
        · obtain rfl : other = wrong := (Prod.mk.inj heq).2
          exact hw
        · -- No later field has this name, so the first one alone decides.
          have hmem' : p.1 ∈ asked.map Prod.fst := List.mem_map.2 ⟨_, hmem, rfl⟩
          exact absurd (hp ▸ hmem') hout
    · rename_i hp
      rw [ih hn s]
      refine exists_congr fun other => and_congr_left' ?_
      rw [List.mem_cons, or_iff_right fun h => hp (congrArg Prod.fst h).symm]

theorem fails_pairs (h : List.Forall₂ Field.Asks fields asked)
    (hn : (asked.map Prod.fst).Nodup) (pairs : Pairs) :
    Fails (fun s => pairs.foldlM (setNamed fields) s) (Misfit asked pairs) := by
  refine (Fails.foldlM fun p _ => fails_setNamed h hn p).congr ?_
  constructor
  · rintro ⟨⟨name, value⟩, hp, wrong, hasked, hw⟩
    exact ⟨name, value, wrong, hp, hasked, hw⟩
  · rintro ⟨name, value, wrong, hp, hasked, hw⟩
    exact ⟨(name, value), hp, wrong, hasked, hw⟩

theorem fails_items (h : List.Forall₂ Field.Asks fields asked) (items : List Item) :
    Fails (fun s => (fields.zip items).foldlM (fun s x => x.1.set x.2 s) s)
      (∃ x ∈ asked.zip items, x.1.2 x.2) := by
  induction h generalizing items with
  | nil => exact Fails.ok.congr (by simp)
  | @cons f a fields asked hfa _ ih =>
    cases items with
    | nil => exact Fails.ok.congr (by simp)
    | cons item items =>
      simp only [List.zip_cons_cons, List.foldlM_cons]
      exact (Fails.bind (hfa.2 item) (ih items)).congr (by simp)

theorem fails_section (h : List.Forall₂ Field.Asks fields asked)
    (hn : (asked.map Prod.fst).Nodup) (expected : String) (item : Item) :
    Fails (setSection fields expected item) (SectionMisfit asked item) := by
  unfold setSection
  split
  · rename_i pairs ht
    refine (fails_pairs h hn pairs).congr ⟨.named ht, ?_⟩
    rintro (⟨hno, -⟩ | ⟨ht', hw⟩ | ⟨hno, -, -, -⟩)
    · cases ht.symm.trans hno
    · cases ht.symm.trans ht'
      exact hw
    · cases ht.symm.trans hno
  · rename_i items ht ha
    refine (fails_items h items).congr ⟨?_, ?_⟩
    · rintro ⟨⟨⟨name, wrong⟩, value⟩, hx, hw⟩
      exact .placed ht ha hx hw
    · rintro (⟨-, hno⟩ | ⟨ht', -⟩ | ⟨-, ha', hx, hw⟩)
      · cases ha.symm.trans hno
      · cases ht.symm.trans ht'
      · cases ha.symm.trans ha'
        exact ⟨_, hx, hw⟩
  · rename_i ht ha
    exact (Fails.error _).congr (iff_of_true trivial (.kind ht ha))

theorem asks_boolean (name : String) (put : RawSettings → Option Bool → RawSettings) :
    (field name Item.toBoolean put).Asks (name, NoBoolean) :=
  asks_field fun _ _ => Item.toBoolean_eq_ok_iff

theorem asks_texts (name : String) (put : RawSettings → Option (List String) → RawSettings) :
    (field name Item.toTexts put).Asks (name, NoTexts) :=
  asks_field fun _ _ => Item.toTexts_eq_ok_iff

theorem discoveryFields_ask : List.Forall₂ Field.Asks discoveryFields discoveryAsked :=
  .cons (asks_boolean _ _) <| .cons (asks_boolean _ _) <| .cons (asks_boolean _ _) <|
    .cons (asks_texts _ _) <| .cons (asks_field fun _ _ => Item.toNatural_eq_ok_iff) <|
      .cons (asks_texts _ _) .nil

theorem loggingFields_ask : List.Forall₂ Field.Asks loggingFields loggingAsked :=
  .cons (asks_field fun _ _ => Item.toText_eq_ok_iff) .nil

theorem overrides_ask (item : Item) :
    Fails (fun s => item.toTextPairs.map fun ps => { s with overrides := ps })
      (NoTextTable item) := by
  intro s
  have hfail : (∃ e, item.toTextPairs = .error e) ↔ NoTextTable item :=
    exists_error_iff.trans (forall_congr' fun es => not_congr Item.toTextPairs_eq_ok_iff)
  rw [← hfail]
  cases item.toTextPairs <;> simp [Except.map]

theorem sections_ask : List.Forall₂ Field.Asks sections documentAsked :=
  .cons ⟨rfl, fails_section discoveryFields_ask (by decide) _⟩ <|
    .cons ⟨rfl, overrides_ask⟩ <|
      .cons ⟨rfl, fails_section loggingFields_ask (by decide) _⟩ .nil

theorem ofPairs_error_iff (pairs : Pairs) :
    (∃ e, ofPairs pairs = .error e) ↔ Misfit documentAsked pairs :=
  fails_pairs sections_ask (by decide) pairs .empty

end RawSettings
end InstallLocator
