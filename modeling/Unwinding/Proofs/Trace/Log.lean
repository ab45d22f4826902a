import Unwinding.Proofs.Trace.Course

/-!
# The log of a run is made of blocks

Where everything is traced and kept, the log of a context is the concatenation of the blocks of its
dispatches, in order: each dispatch that reads its exception and its stack adds the block that tells
of its clauses and its end, whether or not it ends in a fault, and nothing else adds anything.
-/
namespace Unwinding

theorem TracingConfig.isEnabled_of_contains {t : TracingConfig} {k : Category}
    (h : t.categories.contains k = true) : t.isEnabled = true := by
  rw [isEnabled, Categories.isEmpty, Bool.not_eq_true', beq_eq_false_iff_ne]
  intro hnone
  rw [hnone] at h
  cases k <;> exact absurd h (by decide)

theorem Context.openWith_inMemory {env : Environment} {k : Category} (d : Scratch)
    (h : env.config.tracing.categories.contains k = true)
    (hmemory : env.config.tracing.output = none) :
    openWith env d = .ok
      (⟨env, some (.inMemory env.config.tracing.label env.config.tracing.maxEntries), 0⟩, d) := by
  simp [openWith, TracingConfig.isEnabled_of_contains h, hmemory]

namespace Course

/-- What an act adds to the log. -/
inductive Adds (s : Course) : Act → List Event → Prop
  | block {world i j frame p m e stack es} (hp : s.pads[i]? = some p) (hm : s.memories[j]? = some m)
      (he : frame.exception p.pad.exceptionSlot = .ok e)
      (hs : frame.stack p.pad.stackSlot = .ok stack)
      (h : p.pad.Block (Pad.Asked p.held (s.context.environment.scene world frame stack e.header)) e
        (s.context.dispatch world p.pad p.held frame m s.scratch).result es) :
      Adds s (.dispatch world i j frame) es
  | unread {world i j frame p m} (hp : s.pads[i]? = some p) (hm : s.memories[j]? = some m)
      (h : ∀ e stack, frame.exception p.pad.exceptionSlot = .ok e →
        frame.stack p.pad.stackSlot ≠ .ok stack) : Adds s (.dispatch world i j frame) []
  | absent {world i j frame} (h : s.pads[i]? = none ∨ s.memories[j]? = none) :
      Adds s (.dispatch world i j frame) []
  | evaluate {world i k frame stack header} : Adds s (.evaluate world i k frame stack header) []
  | alter {j change} : Adds s (.alter j change) []

/-- What the acts of a run add to the log, one after the other. -/
inductive Logs : Course → List Act → List Event → Prop
  | done {s} : Logs s [] []
  | act {s a acts es log} (h : s.Adds a es) (hlog : Logs (s.step a) acts log) :
      Logs s (a :: acts) (es ++ log)

variable {s : Course}

theorem adds_events (hall : ∀ e, s.context.environment.traces e = true) (a : Act) :
    s.Adds a (s.events a) := by
  cases a with
  | evaluate => exact .evaluate
  | alter => exact .alter
  | dispatch world i j frame =>
    rw [events]
    cases hp : s.pads[i]? with
    | none => exact .absent (.inl hp)
    | some p =>
      cases hm : s.memories[j]? with
      | none => exact .absent (.inr hm)
      | some m =>
        obtain ⟨e, stack, he, hs⟩ | hun := p.pad.reads_or frame
        · exact .block hp hm he hs (Context.block_events s.scratch he hs hall)
        · dsimp only
          rw [Context.events_unread hun]
          exact .unread hp hm hun

theorem logs_handed (hall : ∀ e, s.context.environment.traces e = true) (acts : List Act) :
    s.Logs acts (s.handed acts) := by
  induction acts generalizing s with
  | nil => exact .done
  | cons a acts ih =>
    refine .act (adds_events hall a) (ih ?_)
    rw [step_environment]
    exact hall

theorem Adds.unique {a : Act} {es es' : List Event} (h : s.Adds a es) (h' : s.Adds a es') :
    es = es' := by
  cases h with
  | block hp hm he hs h =>
    cases h' with
    | block hp' hm' he' hs' h' =>
      obtain rfl := Option.some.inj (hp.symm.trans hp')
      obtain rfl := Option.some.inj (hm.symm.trans hm')
      obtain rfl := Except.ok.inj (he.symm.trans he')
      obtain rfl := Except.ok.inj (hs.symm.trans hs')
      rw [Pad.asked_eq] at h h'
      exact h.unique (fun k c r r' hr hr' => hr.symm.trans hr') h'
    | unread hp' hm' h' =>
      obtain rfl := Option.some.inj (hp.symm.trans hp')
      exact absurd hs (h' _ _ he)
    | absent h' => simp [hp, hm] at h'
  | unread hp hm h =>
    cases h' with
    | block hp' hm' he' hs' =>
      obtain rfl := Option.some.inj (hp.symm.trans hp')
      exact absurd hs' (h _ _ he')
    | unread => rfl
    | absent => rfl
  | absent h =>
    cases h' with
    | block hp' hm' => simp [hp', hm'] at h
    | unread => rfl
    | absent => rfl
  | evaluate =>
    cases h' with
    | evaluate => rfl
  | alter =>
    cases h' with
    | alter => rfl

/-- A run has one log. -/
theorem Logs.unique {acts : List Act} {log log' : List Event} (h : s.Logs acts log)
    (h' : s.Logs acts log') : log = log' := by
  induction h generalizing log' with
  | done =>
    cases h' with
    | done => rfl
  | act h _ ih =>
    cases h' with
    | act h' hlog' => rw [h.unique h', ih hlog']

/-- The log of a run under a context that was opened to trace every category in memory without a
bound is the one that is made of what the acts add to it. -/
theorem log_made_of_blocks (env : Environment) (pads : List BuiltPad) (memories : List Memory)
    (acts : List Act) (d d₁ : Scratch) (c : Context) (h : Context.openWith env d = .ok (c, d₁))
    (hall : ∀ k, env.config.tracing.categories.contains k = true)
    (hmemory : env.config.tracing.output = none) (hunbounded : env.config.tracing.maxEntries = 0) :
    let s : Course := ⟨c, pads, memories, d₁⟩
    ∃ log, (∀ log', s.Logs acts log' ↔ log' = log) ∧ (s.run acts).context.tracer =
      some ⟨env.config.tracing.label, .window ⟨0, log⟩, log.length⟩ := by
  intro s
  obtain ⟨rfl, -⟩ := Prod.mk.inj (Except.ok.inj
    ((Context.openWith_inMemory d (hall .dispatch) hmemory).symm.trans h))
  have hlogs := @logs_handed s (fun e => hall e.category) acts
  refine ⟨s.handed acts, fun log' => ⟨fun h' => h'.unique hlogs, fun h' => h' ▸ hlogs⟩, ?_⟩
  rw [(s.run_trace acts).1, Context.trace]
  simp only [s, hunbounded, Writer.inMemory, Writer.writeAll_unbounded, List.nil_append,
    Nat.zero_add]

/-- A dispatch lands, one cannot read its frame, and one is refused by the other memory. -/
theorem log_of_three_dispatches :
    let env : Environment := ⟨{ tracing := .inMemory 0 }, ⟨0⟩, ⟨1⟩⟩
    let pad : Pad := ⟨"pad", 0, 1, .symbol "R", [.catching (.symbol "T"), .filtering []], false⟩
    let frame : Frame := ⟨[some (.exception ⟨0, ⟨0x9000⟩⟩), some (.stack ⟨0x10⟩)]⟩
    let world : Collaborators := ⟨fun _ _ o =>
      .ok (if o = .symbol "T" then ⟨0x20⟩ else MemoryConfig.baseFor .bits64),
      fun _ q => .ok (q.type == ⟨0x30⟩)⟩
    let m : Memory := .new (.forWidth .bits64)
    let acts : List Act :=
      [.dispatch world 0 0 frame, .dispatch world 0 0 ⟨[]⟩, .dispatch world 0 1 frame]
    let scan : List Event := [.entered "pad" ⟨0x9000⟩ 2 false,
      .evaluated "pad" 0 .catching .none, .evaluated "pad" 1 .filtering .filter]
    ∃ c, Context.openWith env {} = .ok (c, {}) ∧
      Logs ⟨c, [{ pad := pad }], [Action.final (Memory.alloc 16 m), m], {}⟩ acts
        (scan ++ [.fired "pad" .filter (MemoryConfig.baseFor .bits64)] ++ scan) := by
  intro env pad frame world m acts scan
  let c : Context := ⟨env, some (.inMemory none 0), 0⟩
  let s : Course := ⟨c, [{ pad := pad }], [Action.final (Memory.alloc 16 m), m], {}⟩
  have h : Context.openWith env {} = .ok (c, {}) := by cbv
  obtain ⟨log, hlog, htracer⟩ := log_made_of_blocks env s.pads s.memories acts {} {} c h
    (fun k => by cases k <;> decide) rfl rfl
  have hevents : (s.run acts).context.tracer = some ⟨none, .window ⟨0,
      scan ++ [.fired "pad" .filter (MemoryConfig.baseFor .bits64)] ++ scan⟩, 7⟩ := by cbv
  have hsame := htracer.symm.trans hevents
  simp only [Option.some.injEq, Writer.mk.injEq, Sink.window.injEq, Window.mk.injEq] at hsame
  exact ⟨c, h, (hlog _).2 hsame.2.1.2.symm⟩

end Course

end Unwinding
