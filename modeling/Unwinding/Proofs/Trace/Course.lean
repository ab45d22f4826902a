import Unwinding.Proofs.Pad.Account

/-!
# One context at work

Pads are dispatched and clauses evaluated under one context, in any order and for any memories,
which others may change meanwhile. What a run hands to the tracer is told apart from all else that
the run shows: of two contexts that differ in their tracing alone, a run shows the same, and the
events that it hands over under some categories are those of these categories among all.
-/
namespace Unwinding

/-! ## What the tracer makes of its events -/

namespace Writer

theorem writeAll_append (es fs : List Event) (w : Writer) (d : Scratch) :
    w.writeAll (es ++ fs) d = (w.writeAll es d).1.writeAll fs (w.writeAll es d).2 := by
  induction es generalizing w d with
  | nil => rfl
  | cons e es ih => exact ih _ _

theorem eventCount_write (e : Event) (w : Writer) (d : Scratch) :
    (w.write e d).1.eventCount = w.eventCount + 1 := by
  rw [write]
  split <;> rfl

theorem eventCount_writeAll (es : List Event) (w : Writer) (d : Scratch) :
    (w.writeAll es d).1.eventCount = w.eventCount + es.length := by
  induction es generalizing w d with
  | nil => rfl
  | cons e es ih =>
    rw [writeAll, ih, eventCount_write, List.length_cons]
    omega

/-- A window without a bound keeps everything. -/
theorem writeAll_unbounded (es old : List Event) (label : Option String) (n : Nat) (d : Scratch) :
    Writer.writeAll es ⟨label, .window ⟨0, old⟩, n⟩ d =
      (⟨label, .window ⟨0, old ++ es⟩, n + es.length⟩, d) := by
  induction es generalizing old n with
  | nil => simp [writeAll]
  | cons e es ih =>
    have hwrite : Writer.write e ⟨label, .window ⟨0, old⟩, n⟩ d =
        (⟨label, .window ⟨0, old ++ [e]⟩, n + 1⟩, d) := rfl
    rw [writeAll, hwrite]
    dsimp only
    rw [ih, List.append_assoc, List.singleton_append, List.length_cons, Nat.add_right_comm,
      Nat.add_assoc]

end Writer

namespace Context

@[simp] theorem trace_nil (c : Context) (d : Scratch) : c.trace [] d = (c, d) := by
  obtain ⟨env, tracer, n⟩ := c
  cases tracer <;> rfl

theorem trace_append (c : Context) (es fs : List Event) (d : Scratch) :
    c.trace (es ++ fs) d = (c.trace es d).1.trace fs (c.trace es d).2 := by
  obtain ⟨env, tracer, n⟩ := c
  cases tracer with
  | none => rfl
  | some w => simp only [trace, Writer.writeAll_append]

end Context

/-! ## Runs -/

structure Course where
  context : Context
  pads : List BuiltPad
  memories : List Memory
  scratch : Scratch

namespace Course

inductive Act
  | dispatch (world : Collaborators) (pad memory : Nat) (frame : Frame)
  | evaluate (world : Collaborators) (pad clause : Nat) (frame : Frame) (stack header : Address)
  /-- Others change a memory. -/
  | alter (memory : Nat) (change : Memory → Memory)

/-- What an act shows, its trace left aside. -/
inductive Report
  | dispatched (result : Except Fault Outcome) (memory : Memory) (held : Holdings)
      (acquisitions : Nat) (asked : List (MatcherId × Query))
  | evaluated (result : Except Fault Selector) (held : Holdings) (acquisitions : Nat)
      (asked : List (MatcherId × Query))
  | nothing

/-- What an act leaves behind and what it shows. What is not there cannot be used. -/
def perform (s : Course) : Act → Course × Report
  | .dispatch world i j frame =>
    match s.pads[i]?, s.memories[j]? with
    | some p, some m =>
      let r := s.context.dispatch world p.pad p.held frame m s.scratch
      (⟨r.context, s.pads.set i { p with held := r.held }, s.memories.set j r.memory, r.scratch⟩,
        .dispatched r.result r.memory r.held r.context.acquisitions r.asked)
    | _, _ => (s, .nothing)
  | .evaluate world i k frame stack header =>
    match s.pads[i]?, s.pads[i]?.bind (·.pad.clauses[k]?) with
    | some p, some clause =>
      let e := s.context.evaluate world clause k p.held frame stack header
      ({ s with context := e.context, pads := s.pads.set i { p with held := e.held } },
        .evaluated e.result e.held e.context.acquisitions e.asked)
    | _, _ => (s, .nothing)
  | .alter j change => ({ s with memories := s.memories.modify j change }, .nothing)

def step (s : Course) (a : Act) : Course := (s.perform a).1

def run (s : Course) (acts : List Act) : Course := acts.foldl step s

/-- What the acts show, one after the other. -/
def reports : Course → List Act → List Report
  | _, [] => []
  | s, a :: acts => (s.perform a).2 :: (s.step a).reports acts

/-- The events that an act hands to the tracer. -/
def events (s : Course) : Act → List Event
  | .dispatch world i j frame =>
    match s.pads[i]?, s.memories[j]? with
    | some p, some m => s.context.events world p.pad frame m p.held
    | _, _ => []
  | .evaluate .. | .alter .. => []

/-- All events that are handed to the tracer. -/
def handed : Course → List Act → List Event
  | _, [] => []
  | s, a :: acts => s.events a ++ (s.step a).handed acts

variable {s s' : Course} {t : TracingConfig}

/-! ## The trace of a run -/

/-- An act leaves its events with the tracer, and does nothing else to it or to the files. -/
theorem step_trace (s : Course) (a : Act) :
    (s.step a).context = { (s.context.trace (s.events a) s.scratch).1 with
      acquisitions := (s.step a).context.acquisitions } ∧
    (s.step a).scratch = (s.context.trace (s.events a) s.scratch).2 := by
  cases a with
  | dispatch world i j frame =>
    cases hp : s.pads[i]? with
    | none => simp [step, perform, events, hp]
    | some p =>
      cases hm : s.memories[j]? with
      | none => simp [step, perform, events, hp, hm]
      | some m =>
        simp only [step, perform, events, hp, hm, Context.dispatch, Context.trace_withAcquisitions]
        exact ⟨rfl, rfl⟩
  | evaluate world i k frame stack header =>
    cases hp : s.pads[i]? with
    | none => simp [step, perform, events, hp]
    | some p =>
      cases hk : p.pad.clauses[k]? with
      | none => simp [step, perform, events, hp, hk]
      | some clause => simp [step, perform, events, hp, hk, Context.evaluate]
  | alter j change => simp [step, perform, events]

theorem step_environment (s : Course) (a : Act) :
    (s.step a).context.environment = s.context.environment := by
  rw [(s.step_trace a).1]
  exact Context.trace_environment _ _ _

/-- The tracer and the files are what the tracer makes of all events together. -/
theorem run_trace (s : Course) (acts : List Act) :
    (s.run acts).context = { (s.context.trace (s.handed acts) s.scratch).1 with
      acquisitions := (s.run acts).context.acquisitions } ∧
    (s.run acts).scratch = (s.context.trace (s.handed acts) s.scratch).2 := by
  induction acts generalizing s with
  | nil => simp [run, handed]
  | cons a acts ih =>
    obtain ⟨hcontext, hscratch⟩ := s.step_trace a
    have h := ih (s.step a)
    rw [hscratch, hcontext, Context.trace_withAcquisitions] at h
    rw [handed, Context.trace_append]
    exact h

/-! ## Two runs -/

/-- Both are the same, but for what is traced and what has become of the traces. -/
structure Alike (t : TracingConfig) (s s' : Course) : Prop where
  environment : s'.context.environment = s.context.environment.withTracing t
  acquisitions : s'.context.acquisitions = s.context.acquisitions
  pads : s'.pads = s.pads
  memories : s'.memories = s.memories

/-- An act shows the same in both and leaves both alike. -/
theorem Alike.perform (h : s.Alike t s') (a : Act) :
    (s.step a).Alike t (s'.step a) ∧ (s'.perform a).2 = (s.perform a).2 := by
  have henv : (s'.step a).context.environment = (s.step a).context.environment.withTracing t := by
    rw [step_environment, step_environment, h.environment]
  suffices hrest : ((s'.step a).context.acquisitions = (s.step a).context.acquisitions ∧
      (s'.step a).pads = (s.step a).pads ∧ (s'.step a).memories = (s.step a).memories) ∧
      (s'.perform a).2 = (s.perform a).2 from
    ⟨⟨henv, hrest.1.1, hrest.1.2.1, hrest.1.2.2⟩, hrest.2⟩
  cases a with
  | dispatch world i j frame =>
    simp only [step, Course.perform, h.pads, h.memories]
    cases s.pads[i]? with
    | none => exact ⟨⟨h.acquisitions, h.pads, h.memories⟩, rfl⟩
    | some p =>
      cases s.memories[j]? with
      | none => exact ⟨⟨h.acquisitions, h.pads, h.memories⟩, rfl⟩
      | some m =>
        obtain ⟨hresult, hmemory, hheld, hasked, hacq⟩ :=
          @Context.dispatch_withTracing s.context s'.context world p.pad p.held frame m t
            h.environment h.acquisitions s.scratch s'.scratch
        simp only [hresult, hmemory, hheld, hasked, hacq, and_self]
  | evaluate world i k frame stack header =>
    simp only [step, Course.perform, h.pads]
    cases s.pads[i]? with
    | none => exact ⟨⟨h.acquisitions, h.pads, h.memories⟩, rfl⟩
    | some p =>
      rw [Option.bind_some]
      cases p.pad.clauses[k]? with
      | none => exact ⟨⟨h.acquisitions, h.pads, h.memories⟩, rfl⟩
      | some clause =>
        obtain ⟨hresult, hheld, hasked, hacq⟩ :=
          @Context.evaluate_withTracing s.context s'.context world p.held frame t h.environment
            h.acquisitions clause k stack header
        simp only [hresult, hheld, hasked, hacq, h.memories, and_self]
  | alter j change =>
    simp only [step, Course.perform, h.memories]
    exact ⟨⟨h.acquisitions, h.pads, trivial⟩, trivial⟩

theorem Alike.events (h : s.Alike t s') (hall : ∀ e, s'.context.environment.traces e = true)
    (a : Act) : s.events a = (s'.events a).filter s.context.environment.traces := by
  cases a with
  | dispatch world i j frame =>
    simp only [Course.events, h.pads, h.memories]
    cases s.pads[i]? with
    | none => rfl
    | some p =>
      cases s.memories[j]? with
      | none => rfl
      | some m => exact Context.events_withTracing h.environment h.acquisitions hall
  | evaluate | alter => rfl

theorem Alike.run (h : s.Alike t s') (acts : List Act) :
    (s.run acts).Alike t (s'.run acts) ∧ s'.reports acts = s.reports acts := by
  induction acts generalizing s s' with
  | nil => exact ⟨h, rfl⟩
  | cons a acts ih =>
    obtain ⟨hstep, hreport⟩ := h.perform a
    obtain ⟨hrun, hreports⟩ := ih hstep
    exact ⟨hrun, by rw [reports, reports, hreport, hreports]⟩

theorem Alike.handed (h : s.Alike t s') (hall : ∀ e, s'.context.environment.traces e = true)
    (acts : List Act) :
    s.handed acts = (s'.handed acts).filter s.context.environment.traces := by
  induction acts generalizing s s' with
  | nil => rfl
  | cons a acts ih =>
    have hrest := ih (h.perform a).1 (by simpa only [step_environment] using hall)
    rw [step_environment] at hrest
    rw [Course.handed, Course.handed, List.filter_append, ← h.events hall, hrest]

end Course

/-! ## Contexts as they are opened -/

namespace Context

/-- A context that was opened counts nothing yet. -/
theorem openWith_fresh {env : Environment} {d d' : Scratch} {c : Context}
    (h : openWith env d = .ok (c, d')) : c.environment = env ∧ c.acquisitions = 0 ∧
      ∀ w, c.tracer = some w → w.eventCount = 0 := by
  rw [openWith] at h
  split at h
  · obtain ⟨rfl, -⟩ := Prod.mk.inj (Except.ok.inj h)
    exact ⟨rfl, rfl, fun w hw => nomatch hw⟩
  · split at h
    · obtain ⟨rfl, -⟩ := Prod.mk.inj (Except.ok.inj h)
      exact ⟨rfl, rfl, fun w hw => Option.some.inj hw ▸ rfl⟩
    · rename_i path _
      cases hfile : d.openToAppend path with
      | error f => simp [Writer.toFile, hfile, bind, Except.bind] at h
      | ok opened =>
        simp only [Writer.toFile, hfile, bind, Except.bind, pure, Except.pure, Except.ok.injEq,
          Prod.mk.injEq] at h
        obtain ⟨rfl, -⟩ := h
        exact ⟨rfl, rfl, fun w hw => Option.some.inj hw ▸ rfl⟩

theorem eventCount_trace {c : Context} {events : List Event} {d : Scratch} {w : Writer}
    (h : (c.trace events d).1.tracer = some w) (hc : ∀ w, c.tracer = some w → w.eventCount = 0) :
    w.eventCount = events.length := by
  rw [trace] at h
  split at h
  · rename_i hnone
    simp [hnone] at h
  · rename_i w₀ hsome
    obtain rfl := Option.some.inj h
    rw [Writer.eventCount_writeAll, hc w₀ hsome, Nat.zero_add]

end Context

namespace Course

/-- The events that a run hands over are the traced ones among those of the run that traces all. -/
theorem handed_eq_filter (s : Course) (acts : List Act) :
    let full := { s.context with environment := s.context.environment.withTracing (.inMemory 0) }
    s.handed acts =
      (handed { s with context := full } acts).filter s.context.environment.traces := by
  intro full
  have halike : s.Alike (.inMemory 0) { s with context := full } := ⟨rfl, rfl, rfl, rfl⟩
  have hall : ∀ k, Categories.all.contains k = true := by
    intro k
    cases k <;> decide
  exact halike.handed (fun e => hall e.category) acts

/-- What a run under an opened context shows does not depend on what the context traces and to
where; nor do the pads, memories and acquisitions that the run leaves. The tracer takes the events
handed to it and counts them, and nothing else becomes of it or of the files. These events are,
among those that a context hands over that traces every category, the ones whose category is traced;
under no known category there are none. -/
theorem runs_differ_in_traces_only (env : Environment) (t t' : TracingConfig) (pads : List BuiltPad)
    (memories : List Memory) (acts : List Act) (d d' d₁ d₁' : Scratch) (c c' : Context)
    (h : Context.openWith (env.withTracing t) d = .ok (c, d₁))
    (h' : Context.openWith (env.withTracing t') d' = .ok (c', d₁')) :
    let s : Course := ⟨c, pads, memories, d₁⟩
    let s' : Course := ⟨c', pads, memories, d₁'⟩
    (s'.reports acts = s.reports acts ∧ (s'.run acts).pads = (s.run acts).pads ∧
      (s'.run acts).memories = (s.run acts).memories ∧
      (s'.run acts).context.acquisitions = (s.run acts).context.acquisitions) ∧
    ((s.run acts).context.tracer = (c.trace (s.handed acts) d₁).1.tracer ∧
      (s.run acts).scratch = (c.trace (s.handed acts) d₁).2 ∧
      ∀ w, (s.run acts).context.tracer = some w → w.eventCount = (s.handed acts).length) ∧
    ((∀ k, t'.categories.contains k = true) →
      s.handed acts = (s'.handed acts).filter fun e => t.categories.contains e.category) ∧
    ((∀ k, t.categories.contains k = false) → s.handed acts = [] ∧
      (s.run acts).context.tracer = c.tracer ∧ (s.run acts).scratch = d₁) := by
  intro s s'
  obtain ⟨henv, hacq, hcount⟩ := Context.openWith_fresh h
  obtain ⟨henv', hacq', -⟩ := Context.openWith_fresh h'
  have halike : s.Alike t' s' :=
    ⟨by rw [henv, henv']; rfl, by rw [hacq, hacq'], rfl, rfl⟩
  obtain ⟨hrun, hreports⟩ := halike.run acts
  obtain ⟨hcontext, hscratch⟩ := s.run_trace acts
  have htracer : (s.run acts).context.tracer = (c.trace (s.handed acts) d₁).1.tracer := by
    rw [hcontext]
  have htraces : s.context.environment.traces = fun e => t.categories.contains e.category := by
    rw [show s.context.environment = env.withTracing t from henv]
    rfl
  refine ⟨⟨hreports, hrun.pads, hrun.memories, hrun.acquisitions⟩, ⟨htracer, hscratch, ?_⟩, ?_, ?_⟩
  · intro w hw
    exact Context.eventCount_trace (htracer.symm.trans hw) hcount
  · intro hall
    have htraces' : ∀ e, s'.context.environment.traces e = true := by
      rw [show s'.context.environment = env.withTracing t' from henv']
      exact fun e => hall e.category
    rw [halike.handed htraces' acts, htraces]
  · intro hnone
    have hnil : s.handed acts = [] := by
      rw [handed_eq_filter, htraces]
      exact List.filter_eq_nil_iff.2 fun e _ => by simp [hnone]
    rw [htracer, hscratch, hnil, Context.trace_nil]
    exact ⟨rfl, rfl, rfl⟩

/-- One context keeps a single event and traces clauses, under a bit without a category besides; the
other keeps everything. -/
theorem runs_with_one_event_kept :
    let env : Environment := ⟨.ofPreset .standard, ⟨0⟩, ⟨1⟩⟩
    let t : TracingConfig := { categories := ⟨6⟩, maxEntries := 1, label := some "run" }
    let pad : Pad := ⟨"pad", 0, 1, .null, [.catching (.symbol "T"), .filtering []], false⟩
    let frame : Frame := ⟨[some (.exception ⟨0, ⟨0x9000⟩⟩), some (.stack ⟨0x10⟩)]⟩
    let world : Collaborators := ⟨fun _ _ o => .ok (if o = .null then .null else ⟨0x20⟩),
      fun _ q => .ok (q.type == ⟨0x30⟩)⟩
    let acts : List Act := [.dispatch world 0 0 frame, .evaluate world 0 0 frame ⟨0x10⟩ ⟨0x9000⟩]
    ∃ c c', Context.openWith (env.withTracing t) {} = .ok (c, {}) ∧
      Context.openWith (env.withTracing (.inMemory 0)) {} = .ok (c', {}) ∧
      let s : Course := ⟨c, [{ pad := pad }], [.new (.forWidth .bits64)], {}⟩
      let s' : Course := ⟨c', [{ pad := pad }], [.new (.forWidth .bits64)], {}⟩
      s.handed acts =
        [.evaluated "pad" 0 .catching .none, .evaluated "pad" 1 .filtering .filter] ∧
      (∀ w, (s.run acts).context.tracer = some w → w.eventCount = 2) ∧
      s'.reports acts = s.reports acts ∧
      s.handed acts = (s'.handed acts).filter fun e => Categories.contains ⟨6⟩ e.category := by
  intro env t pad frame world acts
  let c : Context := ⟨env.withTracing t, some (.inMemory (some "run") 1), 0⟩
  let c' : Context := ⟨env.withTracing (.inMemory 0), some (.inMemory none 0), 0⟩
  have h : Context.openWith (env.withTracing t) {} = .ok (c, {}) := rfl
  have h' : Context.openWith (env.withTracing (.inMemory 0)) {} = .ok (c', {}) := rfl
  obtain ⟨⟨hreports, -⟩, ⟨-, -, hcount⟩, hfilter, -⟩ := runs_differ_in_traces_only env t
    (.inMemory 0) [{ pad := pad }] [.new (.forWidth .bits64)] acts {} {} {} {} c c' h h'
  have hhanded : handed ⟨c, [{ pad := pad }], [.new (.forWidth .bits64)], {}⟩ acts =
      [.evaluated "pad" 0 .catching .none, .evaluated "pad" 1 .filtering .filter] := by cbv
  exact ⟨c, c', h, h', hhanded, fun w hw => (hcount w hw).trans (congrArg List.length hhanded),
    hreports, hfilter fun k => by cases k <;> decide⟩

end Course

end Unwinding
