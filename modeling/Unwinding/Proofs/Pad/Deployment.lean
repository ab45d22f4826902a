import Mathlib
import Unwinding.Proofs.Pad.Exit
import Unwinding.Proofs.Pad.Scan
import Unwinding.Session.Command

/-!
# Pads and contexts in use

Any pads are used under any contexts, in any order. Each use brings the collaborators, the frame and
the memory as they are at its moment, so whatever becomes of tables, frames and memories between two
uses is covered. A pad or a context is known by its place in the list; a clone gets the next place.
`Performs` lists what a use can do: what holds of every run is read off it.
-/
namespace Unwinding

structure Deployment where
  contexts : List Context
  pads : List BuiltPad

namespace Deployment

inductive Use
  | dispatch (world : Collaborators) (pad context : Nat) (frame : Frame) (m : Memory) (d : Scratch)
  | evaluate (world : Collaborators) (pad context clause : Nat) (frame : Frame)
      (stack header : Address)
  | clone (pad : Nat)
  /-- Someone other than a clause has the context hand out its matcher. -/
  | acquire (context : Nat)

/-- The pad and the context that clauses are evaluated of and under. -/
def Use.subject? : Use → Option (Nat × Nat)
  | dispatch _ i j .. | evaluate _ i j .. => some (i, j)
  | clone _ | acquire _ => none

def Use.acquires (j : Nat) : Use → Bool
  | acquire j' => j' == j
  | _ => false

/-- Pads whose clauses hold no matcher yet. -/
def new (contexts : List Context) (pads : List Pad) : Deployment :=
  ⟨contexts, pads.map fun p => { pad := p }⟩

def put (s : Deployment) (i : Nat) (p : BuiltPad) (j : Nat) (c : Context) : Deployment :=
  ⟨s.contexts.set j c, s.pads.set i p⟩

/-- What a use leaves behind, and the questions that it asks. A use of what is not there does
nothing. -/
def perform (s : Deployment) : Use → Deployment × List (MatcherId × Query)
  | .dispatch world i j frame m d =>
    match s.pads[i]?, s.contexts[j]? with
    | some p, some c =>
      let r := c.dispatch world p.pad p.held frame m d
      (s.put i { p with held := r.held } j r.context, r.asked)
    | _, _ => (s, [])
  | .evaluate world i j k frame stack header =>
    match s.pads[i]?, s.contexts[j]? with
    | some p, some c =>
      match p.pad.clauses[k]? with
      | some clause =>
        let e := c.evaluate world clause k p.held frame stack header
        (s.put i { p with held := e.held } j e.context, e.asked)
      | none => (s, [])
    | _, _ => (s, [])
  | .clone i => ({ s with pads := s.pads ++ s.pads[i]?.toList }, [])
  | .acquire j =>
    ({ s with
        contexts := s.contexts.modify j fun c => { c with acquisitions := c.acquisitions + 1 } }, [])

def step (s : Deployment) (u : Use) : Deployment := (s.perform u).1

def asked (s : Deployment) (u : Use) : List (MatcherId × Query) := (s.perform u).2

def run (s : Deployment) (uses : List Use) : Deployment := uses.foldl step s

/-- The matcher that clause `k` of pad `i` holds. -/
def holder? (s : Deployment) (i k : Nat) : Option MatcherId := s.pads[i]?.bind (·.held.find? k)

/-- A use evaluates clause `k` of pad `i` under context `j`: by itself, or in a dispatch that has
read its exception and in which all clauses before it come to zero. -/
inductive Evaluates (s : Deployment) : Use → (i k j : Nat) → Clause → Scene → Prop
  | alone {world i j k frame stack header p c clause} (hp : s.pads[i]? = some p)
      (hc : s.contexts[j]? = some c) (hk : p.pad.clauses[k]? = some clause) :
      Evaluates s (.evaluate world i j k frame stack header) i k j clause
        (c.environment.scene world frame stack header)
  | amid {world i j k frame m d p c clause e stack} (hp : s.pads[i]? = some p)
      (hc : s.contexts[j]? = some c) (hk : p.pad.clauses[k]? = some clause)
      (he : frame.exception p.pad.exceptionSlot = .ok e)
      (hs : frame.stack p.pad.stackSlot = .ok stack)
      (hb : Pad.PassedOver (Pad.Asked p.held (c.environment.scene world frame stack e.header))
        p.pad.clauses k) :
      Evaluates s (.dispatch world i j frame m d) i k j clause
        (c.environment.scene world frame stack e.header)

end Deployment

/-! ## What a dispatch leaves behind for the matchers -/

namespace Context
variable {c : Context} {world : Collaborators} {p : Pad} {held : Holdings} {frame : Frame}
  {m : Memory} {d : Scratch} {e : ThrownException} {stack : Address}

theorem trace_acquisitions (c : Context) (events : List Event) (d : Scratch) :
    (c.trace events d).1.acquisitions = c.acquisitions := by
  rw [trace]
  split <;> rfl

/-- The clauses that a dispatch looks at, once it has read its exception. -/
def visited (c : Context) (world : Collaborators) (p : Pad) (held : Holdings) (frame : Frame)
    (stack header : Address) : List (Nat × Clause) :=
  Pad.scan (Pad.verdictAt (c.environment.scene world frame stack header) held) 0 p.clauses

theorem mem_visited_iff {header : Address} {k : Nat} {clause : Clause} :
    (k, clause) ∈ c.visited world p held frame stack header ↔ p.clauses[k]? = some clause ∧
      Pad.PassedOver (Pad.Asked held (c.environment.scene world frame stack header))
        p.clauses k := by
  rw [visited, Pad.mem_scan_iff, Pad.asked_eq]
  simp

theorem dispatch_consultation (he : frame.exception p.exceptionSlot = .ok e)
    (hs : frame.stack p.stackSlot = .ok stack) :
    let r := c.dispatch world p held frame m d
    let after := (c.environment.scene world frame stack e.header).consult
      (c.visited world p held frame stack e.header) ⟨held, c.acquisitions, []⟩
    r.held = after.held ∧ r.context.acquisitions = after.acquisitions ∧ r.asked = after.asked := by
  intro r after
  let q : Progress := ⟨⟨held, c.acquisitions, []⟩, m, []⟩
  have h : (Action.final (p.dispatch world c.environment frame q)).consultation = after := by
    rw [Pad.dispatch_consultation he hs, Pad.decided, Pad.surveyed_consultation,
      Pad.noted_consultation]
    rfl
  refine ⟨congrArg Consultation.held h, ?_, congrArg Consultation.asked h⟩
  exact (trace_acquisitions _ _ d).trans (congrArg Consultation.acquisitions h)

/-- A dispatch that cannot read its frame comes to no clause. -/
theorem dispatch_unread (h : ∀ e stack, frame.exception p.exceptionSlot = .ok e →
      frame.stack p.stackSlot ≠ .ok stack) :
    let r := c.dispatch world p held frame m d
    r.held = held ∧ r.context.acquisitions = c.acquisitions ∧ r.asked = [] := by
  intro r
  let q : Progress := ⟨⟨held, c.acquisitions, []⟩, m, []⟩
  have hq : Action.final (p.dispatch world c.environment frame q) = q := by
    cases he : frame.exception p.exceptionSlot with
    | error f => exact congrArg Action.final (Pad.dispatch_of_noException he)
    | ok e =>
      cases hs : frame.stack p.stackSlot with
      | error f => exact congrArg Action.final (Pad.dispatch_of_noStack he hs)
      | ok stack => exact absurd hs (h e stack he)
  refine ⟨congrArg (·.consultation.held) hq, ?_, congrArg (·.consultation.asked) hq⟩
  exact (trace_acquisitions _ _ d).trans (congrArg (·.consultation.acquisitions) hq)

end Context

/-! ## What a use can do -/

namespace Deployment
variable {s : Deployment} {u : Use}

/-- Everything that a use can leave behind and ask: either some clauses of its pad are evaluated one
after the other, `visited` in the scene `scene`, or none is evaluated. -/
inductive Performs (s : Deployment) : Use → Deployment → List (MatcherId × Query) → Prop
  | consulted {u i j p c c' after} (scene : Scene) (visited : List (Nat × Clause))
      (hu : u.subject? = some (i, j))
      (hp : s.pads[i]? = some p) (hc : s.contexts[j]? = some c)
      (hm : scene.matcher = c.environment.matcher)
      (hv : ∀ {i' k j' clause scene'}, s.Evaluates u i' k j' clause scene' ↔
        (i' = i ∧ j' = j) ∧ scene' = scene ∧ (k, clause) ∈ visited)
      (hafter : after = scene.consult visited ⟨p.held, c.acquisitions, []⟩)
      (henv : c'.environment = c.environment) (hacq : c'.acquisitions = after.acquisitions) :
      Performs s u (s.put i { p with held := after.held } j c') after.asked
  | missed {u i j} (hu : u.subject? = some (i, j))
      (hv : ∀ {i k j clause scene}, ¬ s.Evaluates u i k j clause scene) : Performs s u s []
  | cloned {i} : Performs s (.clone i) { s with pads := s.pads ++ s.pads[i]?.toList } []
  | acquired {j} : Performs s (.acquire j)
      { s with
        contexts := s.contexts.modify j fun c => { c with acquisitions := c.acquisitions + 1 } } []

section Perform
variable {i j : Nat} {p : BuiltPad} {c : Context}

private theorem performs_dispatch (world : Collaborators) (frame : Frame) (m : Memory) (d : Scratch)
    (hp : s.pads[i]? = some p) (hc : s.contexts[j]? = some c)
    (hu : u = .dispatch world i j frame m d) : s.Performs u (s.step u) (s.asked u) := by
  subst hu
  let r := c.dispatch world p.pad p.held frame m d
  have hstep : s.step (.dispatch world i j frame m d) =
      s.put i { p with held := r.held } j r.context := by simp only [step, perform, hp, hc, r]
  have hasked : s.asked (.dispatch world i j frame m d) = r.asked := by
    simp only [Deployment.asked, perform, hp, hc, r]
  have henv : r.context.environment = c.environment := Context.dispatch_environment _ _ _ _ _ _ d
  rw [hstep, hasked]
  obtain ⟨e, stack, he, hs⟩ | hun := p.pad.reads_or frame
  · obtain ⟨hheld, hacq, hask⟩ :=
      @Context.dispatch_consultation c world p.pad p.held frame m d e stack he hs
    rw [hheld, hask]
    refine .consulted _ _ rfl hp hc rfl ?_ rfl henv hacq
    intro i' k j' clause scene'
    rw [Context.mem_visited_iff]
    constructor
    · intro h
      cases h with
      | amid hp' hc' hk he' hs' hb =>
        obtain rfl := Option.some.inj (hp.symm.trans hp')
        obtain rfl := Option.some.inj (hc.symm.trans hc')
        obtain rfl := Except.ok.inj (he.symm.trans he')
        obtain rfl := Except.ok.inj (hs.symm.trans hs')
        exact ⟨⟨rfl, rfl⟩, rfl, hk, hb⟩
    · rintro ⟨⟨rfl, rfl⟩, rfl, hk, hb⟩
      exact .amid hp hc hk he hs hb
  · obtain ⟨hheld, hacq, hask⟩ := @Context.dispatch_unread c world p.pad p.held frame m d hun
    rw [hheld, hask]
    refine .consulted (c.environment.scene world frame .null .null) [] rfl hp hc rfl ?_ rfl henv
      hacq
    intro i' k j' clause scene'
    constructor
    · intro h
      cases h with
      | amid hp' hc' hk he' hs' hb =>
        obtain rfl := Option.some.inj (hp.symm.trans hp')
        exact absurd hs' (hun _ _ he')
    · rintro ⟨-, -, hk⟩
      exact absurd hk List.not_mem_nil

private theorem performs_evaluate {k : Nat} {clause : Clause} (world : Collaborators)
    (frame : Frame) (stack header : Address) (hp : s.pads[i]? = some p) (hc : s.contexts[j]? = some c)
    (hk : p.pad.clauses[k]? = some clause) (hu : u = .evaluate world i j k frame stack header) :
    s.Performs u (s.step u) (s.asked u) := by
  subst hu
  let e := c.evaluate world clause k p.held frame stack header
  have hstep : s.step (.evaluate world i j k frame stack header) =
      s.put i { p with held := e.held } j e.context := by simp only [step, perform, hp, hc, hk, e]
  have hasked : s.asked (.evaluate world i j k frame stack header) = e.asked := by
    simp only [Deployment.asked, perform, hp, hc, hk, e]
  rw [hstep, hasked]
  refine .consulted (c.environment.scene world frame stack header) [(k, clause)] rfl hp hc rfl ?_
    rfl rfl rfl
  intro i' k' j' clause' scene'
  constructor
  · intro h
    cases h with
    | alone hp' hc' hk' =>
      obtain rfl := Option.some.inj (hp.symm.trans hp')
      obtain rfl := Option.some.inj (hc.symm.trans hc')
      obtain rfl := Option.some.inj (hk.symm.trans hk')
      exact ⟨⟨rfl, rfl⟩, rfl, List.mem_singleton_self _⟩
  · rintro ⟨⟨rfl, rfl⟩, rfl, hmem⟩
    obtain ⟨rfl, rfl⟩ := Prod.mk.inj (List.mem_singleton.1 hmem)
    exact .alone hp hc hk

end Perform

theorem performs (s : Deployment) (u : Use) : s.Performs u (s.step u) (s.asked u) := by
  cases u with
  | dispatch world i j frame m d =>
    cases hp : s.pads[i]? with
    | none =>
      simp only [step, Deployment.asked, perform, hp]
      exact .missed rfl fun h => by cases h with | amid hp' => simp [hp] at hp'
    | some p =>
      cases hc : s.contexts[j]? with
      | none =>
        simp only [step, Deployment.asked, perform, hp, hc]
        exact .missed rfl fun h => by cases h with | amid _ hc' => simp [hc] at hc'
      | some c => exact performs_dispatch world frame m d hp hc rfl
  | evaluate world i j k frame stack header =>
    cases hp : s.pads[i]? with
    | none =>
      simp only [step, Deployment.asked, perform, hp]
      exact .missed rfl fun h => by cases h with | alone hp' => simp [hp] at hp'
    | some p =>
      cases hc : s.contexts[j]? with
      | none =>
        simp only [step, Deployment.asked, perform, hp, hc]
        exact .missed rfl fun h => by cases h with | alone _ hc' => simp [hc] at hc'
      | some c =>
        cases hk : p.pad.clauses[k]? with
        | none =>
          simp only [step, Deployment.asked, perform, hp, hc, hk]
          refine .missed rfl fun h => ?_
          cases h with
          | alone hp' _ hk' =>
            obtain rfl := Option.some.inj (hp.symm.trans hp')
            simp [hk] at hk'
        | some clause => exact performs_evaluate world frame stack header hp hc hk rfl
  | clone i => exact .cloned
  | acquire j => exact .acquired

end Deployment

end Unwinding
