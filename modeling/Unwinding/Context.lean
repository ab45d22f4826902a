import Unwinding.Pad.Dispatch
import Unwinding.Trace.Writer

/-!
# Contexts

A context puts an environment together with what changes under it: the number of times its matcher
was acquired, and the writer that takes its events.
-/
namespace Unwinding

structure Context where
  environment : Environment
  tracer : Option Writer := none
  /-- How often the matcher was acquired; a counter of 64 bits shows the number modulo 2^64. -/
  acquisitions : Nat := 0
  deriving DecidableEq, Repr

/-- What a dispatch leaves behind. -/
structure Dispatched where
  result : Except Fault Outcome
  context : Context
  held : Holdings
  memory : Memory
  asked : List (MatcherId × Query)
  scratch : Scratch

/-- What the evaluation of a single clause leaves behind. -/
structure Evaluated where
  result : Except Fault Selector
  context : Context
  held : Holdings
  asked : List (MatcherId × Query)

namespace Context

/-- A context traces when any category bit is set; only a trace file can keep it from opening. -/
def openWith (env : Environment) (d : Scratch) : Except FileFault (Context × Scratch) :=
  let t := env.config.tracing
  if !t.isEnabled then .ok ({ environment := env }, d)
  else match t.output with
    | none => .ok ({ environment := env, tracer := some (.inMemory t.label t.maxEntries) }, d)
    | some path => do
      let (w, d) ← Writer.toFile t.label path d
      return ({ environment := env, tracer := some w }, d)

def close (c : Context) (d : Scratch) : Scratch :=
  match c.tracer with
  | none => d
  | some w => w.close d

/-- Hands events to the tracer, if there is one. -/
def trace (c : Context) (events : List Event) (d : Scratch) : Context × Scratch :=
  match c.tracer with
  | none => (c, d)
  | some w =>
    let (w, d) := w.writeAll events d
    ({ c with tracer := some w }, d)

def dispatch (c : Context) (world : Collaborators) (p : Pad) (held : Holdings) (frame : Frame)
    (m : Memory) (d : Scratch) : Dispatched :=
  let run := p.dispatch world c.environment frame ⟨⟨held, c.acquisitions, []⟩, m, []⟩
  let final := Action.final run
  let (c, d) := { c with acquisitions := final.consultation.acquisitions }.trace final.events d
  { result := Action.result run
    context := c
    held := final.consultation.held
    memory := final.memory
    asked := final.consultation.asked
    scratch := d }

def evaluate (c : Context) (world : Collaborators) (clause : Clause) (index : Nat)
    (held : Holdings) (frame : Frame) (stack header : Address) : Evaluated :=
  let s : Scene :=
    ⟨world, c.environment.resolver, c.environment.matcher, frame, stack, header⟩
  let run := clause.evaluate s index ⟨held, c.acquisitions, []⟩
  let final := Action.final run
  { result := Action.result run
    context := { c with acquisitions := final.acquisitions }
    held := final.held
    asked := final.asked }

end Context

end Unwinding
