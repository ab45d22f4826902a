import Unwinding.Clause.Evaluation
import Unwinding.Config
import Unwinding.Pad
import Unwinding.Record

/-!
# Dispatch

An exception that unwinds into a landing pad meets its clauses in order. The first that matches
decides the selector; a cleanup pad is entered without a match too. A pad that is entered leaves a
record at its destination, any other lets the very same exception go on.
-/
namespace Unwinding

/-- What a context is made of for good. -/
structure Environment where
  config : Config
  resolver : ResolverId
  matcher : MatcherId
  deriving DecidableEq, Repr

inductive Outcome
  | landed (record : Address) (selector : Selector)
  | resume (e : ThrownException)
  deriving DecidableEq, Repr

namespace Outcome

def record? : Outcome → Option Address
  | landed record _ => some record
  | resume _ => none

def selector? : Outcome → Option Selector
  | landed _ selector => some selector
  | resume _ => none

def resumed? : Outcome → Option ThrownException
  | landed .. => none
  | resume e => some e

end Outcome

/-- What a dispatch changes, and the events it recorded, oldest first. -/
structure Progress where
  consultation : Consultation
  memory : Memory
  events : List Event := []

namespace Progress

def consult {α : Type} (x : Action Consultation α) : Action Progress α :=
  Action.focus consultation (fun c p => { p with consultation := c }) x

def store {α : Type} (x : Action Memory α) : Action Progress α :=
  Action.focus memory (fun m p => { p with memory := m }) x

theorem consult_of_ok {α : Type} {x : Action Consultation α} {p : Progress} {a : α}
    {c : Consultation} (h : x p.consultation = .ok a c) :
    consult x p = .ok a { p with consultation := c } := Action.focus_of_ok h

theorem consult_of_error {α : Type} {x : Action Consultation α} {p : Progress} {f : Fault}
    {c : Consultation} (h : x p.consultation = .error f c) :
    consult x p = .error f { p with consultation := c } := Action.focus_of_error h

theorem store_of_ok {α : Type} {x : Action Memory α} {p : Progress} {a : α} {m : Memory}
    (h : x p.memory = .ok a m) : store x p = .ok a { p with memory := m } := Action.focus_of_ok h

theorem store_of_error {α : Type} {x : Action Memory α} {p : Progress} {f : Fault} {m : Memory}
    (h : x p.memory = .error f m) : store x p = .error f { p with memory := m } :=
  Action.focus_of_error h

end Progress

namespace Environment

/-- An event is recorded if its category is among those that are traced. -/
def noted (env : Environment) (e : Event) (p : Progress) : Progress :=
  if env.config.tracing.categories.contains e.category then { p with events := p.events ++ [e] }
  else p

def emit (env : Environment) (e : Event) : Action Progress Unit := modify (env.noted e)

theorem emit_apply (env : Environment) (e : Event) (p : Progress) :
    env.emit e p = .ok () (env.noted e p) := rfl

end Environment

namespace Pad

/-- The selector of the first clause that matches, counted from index `i`. -/
def select (p : Pad) (env : Environment) (s : Scene) : Nat → List Clause → Action Progress Selector
  | _, [] => return .none
  | i, c :: cs => do
    let selector ← Progress.consult (c.evaluate s i)
    env.emit (.evaluated p.name i c.kind selector)
    if selector.isMatch then return selector
    else p.select env s (i + 1) cs

def dispatch (p : Pad) (world : Collaborators) (env : Environment) (frame : Frame) :
    Action Progress Outcome := do
  let e ← Action.settle (frame.exception p.exceptionSlot)
  let stack ← Action.settle (frame.stack p.stackSlot)
  env.emit (.entered p.name e.header p.clauses.length p.cleanup)
  let s : Scene := ⟨world, env.resolver, env.matcher, frame, stack, e.header⟩
  let selector ← p.select env s 0 p.clauses
  if selector.isMatch || p.cleanup then
    let destination ← Action.settle (s.resolve p.destination)
    let record ← Progress.store (Record.write ⟨e.header, selector⟩ env.config.layout destination)
    env.emit (.fired p.name selector record)
    return .landed record selector
  else
    env.emit (.propagated p.name e.header)
    return .resume e

theorem select_nil (p : Pad) (env : Environment) (s : Scene) (i : Nat) (q : Progress) :
    p.select env s i [] q = .ok .none q := rfl

theorem select_cons (p : Pad) (env : Environment) (s : Scene) (i : Nat) (c : Clause)
    (cs : List Clause) (q : Progress) :
    p.select env s i (c :: cs) q =
      match c.evaluate s i q.consultation with
      | .error f d => .error f { q with consultation := d }
      | .ok v d =>
        let q := env.noted (.evaluated p.name i c.kind v) { q with consultation := d }
        if v.isMatch then .ok v q else p.select env s (i + 1) cs q := by
  rw [select]
  cases h : c.evaluate s i q.consultation with
  | error f d => rw [Action.bind_of_error (Progress.consult_of_error h)]
  | ok v d =>
    rw [Action.bind_of_ok (Progress.consult_of_ok h), Action.bind_of_ok (env.emit_apply _ _)]
    cases hv : v.isMatch <;> simp only [hv] <;> rfl

end Pad

end Unwinding
