import InstallLocator.Text.AsciiCase
import InstallLocator.Text.White

/-!
# Regions

The server regions of the game, each a separately installed client. A region
is named by a short code in commands and settings, and by a product id in the
files of the client; both are read without regard to surrounding white space
and to the case of ASCII letters.
-/

set_option autoImplicit false

namespace InstallLocator

inductive Region
  | worldwide
  | china
  | publicTest
deriving DecidableEq, Repr, Ord

structure UnknownRegion where
  text : String
deriving DecidableEq, Repr

def UnknownRegion.message (u : UnknownRegion) : String :=
  "unknown game server '" ++ u.text ++ "' (expected ww, cn or pt)"

namespace Region

/-- Every region, in the order of every report. -/
def all : List Region := [worldwide, china, publicTest]

theorem mem_all (r : Region) : r ∈ all := by
  cases r <;> decide

instance : LT Region := ltOfOrd

instance (r s : Region) : Decidable (r < s) := inferInstanceAs (Decidable (compare r s = .lt))

theorem lt_irrefl (r : Region) : ¬r < r := by
  cases r <;> decide

theorem lt_asymm {r s : Region} (h : r < s) : ¬s < r := by
  cases r <;> cases s <;> first | decide | exact absurd h (by decide)

theorem all_ordered : all.Pairwise (· < ·) := by decide

def number : Region → Int
  | worldwide => 0
  | china => 1
  | publicTest => 2

def ofNumber? (n : Int) : Option Region :=
  all.find? fun r => r.number == n

def code : Region → String
  | worldwide => "ww"
  | china => "cn"
  | publicTest => "pt"

def mark : Region → String
  | worldwide => "WW"
  | china => "CN"
  | publicTest => "PT"

def title : Region → String
  | worldwide => "Ww"
  | china => "Cn"
  | publicTest => "Pt"

def gameId : Region → String
  | worldwide => "WOWS.WW.PRODUCTION"
  | china => "WOWS.CN.PRODUCTION"
  | publicTest => "WOWS.PT.PRODUCTION"

def ofGameId? (id : String) : Option Region :=
  all.find? fun r => sameIgnoringCase r.gameId (trim id)

def ofCode? (text : String) : Option Region :=
  all.find? fun r => sameIgnoringCase r.code (trim text)

def parse (text : String) : Except UnknownRegion Region :=
  match ofCode? text with
  | some r => .ok r
  | none => .error ⟨text⟩

/-- Where no two regions have one name, the region that is found is the one whose
name the text spells, in whatever order the regions are tried. -/
theorem find?_spelled_iff {order : List Region} (hall : ∀ s, s ∈ order) {name : Region → String}
    (apart : ∀ r s, sameIgnoringCase (name r) (name s) = true → r = s) {text : String}
    {s : Region} :
    (order.find? fun r => sameIgnoringCase (name r) text) = some s ↔
      sameIgnoringCase (name s) text = true := by
  refine ⟨fun h => by simpa using List.find?_some h, fun h => ?_⟩
  cases hf : order.find? fun r => sameIgnoringCase (name r) text with
  | none => exact absurd h (List.find?_eq_none.1 hf s (hall s))
  | some r =>
    have hr : sameIgnoringCase (name r) text = true := by simpa using List.find?_some hf
    rw [apart r s (sameIgnoringCase_trans hr (sameIgnoringCase_symm _ _ ▸ h))]

theorem find?_spelled_eq_none_iff {name : Region → String} {text : String} :
    (all.find? fun r => sameIgnoringCase (name r) text) = none ↔
      ∀ s, sameIgnoringCase (name s) text = false := by
  rw [List.find?_eq_none]
  exact ⟨fun h s => by simpa using h s (mem_all s), fun h s _ => by simp [h s]⟩

theorem code_apart (r s : Region) (h : sameIgnoringCase r.code s.code = true) : r = s := by
  cases r <;> cases s <;> first | rfl | exact absurd h (by decide)

theorem gameId_apart (r s : Region) (h : sameIgnoringCase r.gameId s.gameId = true) : r = s := by
  cases r <;> cases s <;> first | rfl | exact absurd h (by decide)

theorem ofCode?_eq_some_iff {text : String} {s : Region} :
    ofCode? text = some s ↔ sameIgnoringCase s.code (trim text) = true :=
  find?_spelled_iff mem_all code_apart

theorem ofGameId?_eq_some_iff {id : String} {s : Region} :
    ofGameId? id = some s ↔ sameIgnoringCase s.gameId (trim id) = true :=
  find?_spelled_iff mem_all gameId_apart

theorem ofGameId?_eq_none_iff {id : String} :
    ofGameId? id = none ↔ ∀ s : Region, sameIgnoringCase s.gameId (trim id) = false :=
  find?_spelled_eq_none_iff

theorem parse_eq_ok_iff {text : String} {s : Region} :
    parse text = .ok s ↔ ofCode? text = some s := by
  unfold parse
  cases ofCode? text <;> simp

theorem parse_eq_error_iff {text : String} {u : UnknownRegion} :
    parse text = .error u ↔ ofCode? text = none ∧ u = ⟨text⟩ := by
  unfold parse
  cases ofCode? text <;> simp [eq_comm]

end Region
end InstallLocator
