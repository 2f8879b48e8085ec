import InstallLocator.Settings.Raw

/-!
# Reading section by section

A document is read field by field, each field on top of those before it. A
property of readings that composes is one of every section as soon as it is one
of every field.
-/

set_option autoImplicit false

namespace InstallLocator.RawSettings

open Toml (Item)

/-- What reads a part of a document, on top of what was read before. -/
abbrev Reading := RawSettings → Except ShapeError RawSettings

theorem bind_eq_ok_iff {α β : Type} {x : Except ShapeError α} {f : α → Except ShapeError β}
    {b : β} : (x >>= f) = .ok b ↔ ∃ a, x = .ok a ∧ f a = .ok b := by
  cases x <;> simp [bind, Except.bind]

theorem map_eq_ok_iff {α β : Type} {x : Except ShapeError α} {f : α → β} {b : β} :
    x.map f = .ok b ↔ ∃ a, x = .ok a ∧ f a = b := by
  cases x <;> simp [Except.map]

theorem mapError_eq_ok_iff {α ε : Type} {x : Except ShapeError α} {f : ShapeError → ε} {a : α} :
    x.mapError f = .ok a ↔ x = .ok a := by
  cases x with
  | error e =>
    change Except.error (f e) = Except.ok a ↔ _
    simp
  | ok b =>
    change (Except.ok b : Except ε α) = .ok a ↔ _
    simp

/-- The property holds of a reading that is put together from readings it holds of. -/
structure Composes (P : Reading → Prop) : Prop where
  ok : P .ok
  error : ∀ e, P fun _ => .error e
  bind : ∀ {f g : Reading}, P f → P g → P fun s => f s >>= g

namespace Composes

variable {P : Reading → Prop}

theorem foldlM (hP : Composes P) {α : Type} {f : RawSettings → α → Except ShapeError RawSettings}
    {xs : List α} (hf : ∀ x ∈ xs, P (f · x)) : P fun s => xs.foldlM f s := by
  induction xs with
  | nil => exact hP.ok
  | cons x xs ih =>
    simp only [List.foldlM_cons]
    exact hP.bind (hf x List.mem_cons_self) (ih fun y hy => hf y (List.mem_cons_of_mem x hy))

theorem setNamed_of_name (hP : Composes P) {fields : List Field} {p : String × Item}
    (hfields : ∀ f ∈ fields, f.name = p.1 → P (f.set p.2)) : P (setNamed fields · p) := by
  unfold RawSettings.setNamed
  split
  · rename_i f hf
    exact hfields f (List.mem_of_find?_eq_some hf) (by simpa using List.find?_some hf)
  · exact hP.ok

theorem setNamed (hP : Composes P) {fields : List Field}
    (hfields : ∀ f ∈ fields, ∀ item, P (f.set item)) (p : String × Item) :
    P (setNamed fields · p) :=
  hP.setNamed_of_name fun f hf _ => hfields f hf p.2

theorem setSection (hP : Composes P) {fields : List Field} (expected : String)
    (hfields : ∀ f ∈ fields, ∀ item, P (f.set item)) (item : Item) :
    P (setSection fields expected item) := by
  unfold RawSettings.setSection
  split
  · exact hP.foldlM fun p _ => hP.setNamed hfields p
  · exact hP.foldlM fun x hx => hfields x.1 (List.of_mem_zip hx).1 x.2
  · exact hP.error _

end Composes

theorem parse_eq_ok_iff {text : String} {raw : RawSettings} :
    parse text = .ok raw ↔ ∃ pairs, Toml.parse text = some pairs ∧ ofPairs pairs = .ok raw := by
  unfold parse
  cases Toml.parse text with
  | none => simp
  | some pairs => simp [mapError_eq_ok_iff]

theorem parse_of_toOption {text : String} {raw : RawSettings}
    (h : (parse text).toOption = some raw) : parse text = .ok raw := by
  cases hp : parse text with
  | error e =>
    rw [hp] at h
    cases h
  | ok r =>
    rw [hp] at h
    exact congrArg Except.ok (Option.some.inj h)

end InstallLocator.RawSettings
