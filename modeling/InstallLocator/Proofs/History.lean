import InstallLocator.Proofs.FirstUsable
import InstallLocator.Report

/-!
# Sessions with a locator

A session is any sequence of changes to the file tree, surveys and questions.
What a question is answered depends on the last survey alone: on the chain and
on the tree as it stood then. Questions leave no trace in a session.
-/

set_option autoImplicit false

namespace InstallLocator

/-- What a locator may be asked. Lines and the report go to an output that may
have no room for them. -/
inductive Question
  | directory (s : Region)
  | paths
  | regions
  | record
  | summary
  | lines (out : Sink)
  | report (out : Sink)
  | shown

inductive Answer
  | directory (p : Option Path)
  | paths (ps : List Path)
  | regions (rs : List Region)
  | record (r : InstallRecord)
  | summary (events : List Event)
  | printed (result : Except IoError String)
  | shown (text : String)

namespace Locator

def answer (l : Locator) : Question → Answer
  | .directory s => .directory (l.directory? s)
  | .paths => .paths l.record.paths
  | .regions => .regions l.record.regions
  | .record => .record l.record
  | .summary => .summary l.summary
  | .lines out => .printed (out.write (Report.lines l.record))
  | .report out => .printed (out.write (Report.json l.record))
  | .shown => .shown l.shown

/-- No region is resolved and there is nothing to list. -/
structure Blank (l : Locator) : Prop where
  directory : ∀ s, l.directory? s = none
  paths : l.record.paths = []
  regions : l.record.regions = []
  entries : l.record.entries = []
  summary : l.summary = [.nothingFound]

theorem blank_ofChain (chain : List Strategy) : (ofChain chain).Blank where
  directory s := congrArg (Option.map Install.path) (RegionMap.get_empty s)
  paths := rfl
  regions := rfl
  entries := rfl
  summary := rfl

/-- Answers show the record and the names of the chain, and nothing else. -/
theorem answer_congr {l m : Locator} (hchain : l.chain = m.chain) (hrecord : l.record = m.record)
    (q : Question) : l.answer q = m.answer q := by
  obtain ⟨chain, record, counts⟩ := l
  obtain ⟨_, _, counts'⟩ := m
  subst hchain hrecord
  cases q <;> rfl

theorem locate_record {l m : Locator} (hchain : l.chain = m.chain) (h : Host) :
    (l.locate h).value.record = (m.locate h).value.record := by
  change (Survey.run h .empty l.chain).value.record = (Survey.run h .empty m.chain).value.record
  rw [hchain]

theorem locate_answer {l m : Locator} (hchain : l.chain = m.chain) (h : Host) (q : Question) :
    (l.locate h).value.answer q = (m.locate h).value.answer q := by
  have hrecord := locate_record hchain h
  refine answer_congr ?_ hrecord q
  exact hchain

end Locator

inductive SessionStep
  | change (tree : FileTree)
  | locate
  | ask (q : Question)

def SessionStep.isAsk : SessionStep → Bool
  | ask _ => true
  | _ => false

structure Session where
  host : Host
  locator : Locator

namespace Session

def start (chain : List Strategy) (h : Host) : Session := ⟨h, .ofChain chain⟩

/-- The machine and the locator after a step. Questions are answered from the
locator as it stands. -/
def step (s : Session) : SessionStep → Session
  | .change tree => ⟨{ s.host with tree := tree }, s.locator⟩
  | .locate => ⟨s.host, (s.locator.locate s.host).value⟩
  | .ask _ => s

def after (s : Session) : List SessionStep → Session
  | [] => s
  | x :: rest => (s.step x).after rest

def answer (s : Session) (q : Question) : Answer := s.locator.answer q

theorem after_append (s : Session) (before rest : List SessionStep) :
    s.after (before ++ rest) = (s.after before).after rest := by
  induction before generalizing s with
  | nil => rfl
  | cons x before ih => exact ih _

theorem step_chain (s : Session) (x : SessionStep) : (s.step x).locator.chain = s.locator.chain := by
  cases x <;> rfl

theorem after_chain (s : Session) (steps : List SessionStep) :
    (s.after steps).locator.chain = s.locator.chain := by
  induction steps generalizing s with
  | nil => rfl
  | cons x rest ih => rw [after, ih, step_chain]

theorem step_locator (s : Session) {x : SessionStep} (hx : x ≠ .locate) :
    (s.step x).locator = s.locator := by
  cases x with
  | change tree => rfl
  | locate => exact absurd rfl hx
  | ask q => rfl

theorem after_locator (s : Session) {steps : List SessionStep} (hn : .locate ∉ steps) :
    (s.after steps).locator = s.locator := by
  induction steps generalizing s with
  | nil => rfl
  | cons x rest ih =>
    have hx : x ≠ .locate := fun he => hn (he ▸ List.mem_cons_self)
    have hrest : .locate ∉ rest := fun hr => hn (List.mem_cons_of_mem x hr)
    rw [after, ih _ hrest, step_locator s hx]

theorem after_filter_isAsk (s : Session) (steps : List SessionStep) :
    s.after (steps.filter fun x => !x.isAsk) = s.after steps := by
  induction steps generalizing s with
  | nil => rfl
  | cons x rest ih => cases x <;> exact ih _

theorem exists_last_locate {steps : List SessionStep} (hl : .locate ∈ steps) :
    ∃ before rest, steps = before ++ .locate :: rest ∧ .locate ∉ rest := by
  obtain ⟨rest, before, hsplit, hn⟩ := List.eq_append_cons_of_mem (List.mem_reverse.2 hl)
  refine ⟨before.reverse, rest.reverse, ?_, by simpa using hn⟩
  simpa using congrArg List.reverse hsplit

theorem answer_after_locate (chain : List Strategy) (h : Host) {before rest : List SessionStep}
    (hn : .locate ∉ rest) (q : Question) :
    ((start chain h).after (before ++ .locate :: rest)).answer q =
      ((Locator.ofChain chain).locate ((start chain h).after before).host).value.answer q := by
  have hchain : ((start chain h).after before).locator.chain = (Locator.ofChain chain).chain :=
    after_chain _ before
  rw [after_append, after, answer, after_locator _ hn]
  exact Locator.locate_answer hchain _ q

/-- However a session went, questions are answered as by a new locator after a
single survey, of the machine as the last survey met it, and before the first
survey nothing is resolved. The session would be where it is without the questions. -/
theorem answer_of_last_survey (chain : List Strategy) (h : Host) (steps : List SessionStep) :
    (.locate ∉ steps ∧ ((start chain h).after steps).locator.Blank ∨
      ∃ before rest, steps = before ++ .locate :: rest ∧ .locate ∉ rest ∧
        ∀ q, ((start chain h).after steps).answer q =
          ((Locator.ofChain chain).locate ((start chain h).after before).host).value.answer q) ∧
      (start chain h).after (steps.filter fun x => !x.isAsk) = (start chain h).after steps := by
  refine ⟨?_, after_filter_isAsk _ steps⟩
  by_cases hl : .locate ∈ steps
  · obtain ⟨before, rest, rfl, hn⟩ := exists_last_locate hl
    exact Or.inr ⟨before, rest, rfl, hn, answer_after_locate chain h hn⟩
  · refine Or.inl ⟨hl, ?_⟩
    rw [after_locator _ hl]
    exact Locator.blank_ofChain chain

end Session
end InstallLocator
