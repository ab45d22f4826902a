import Unwinding.Proofs.Pad.Transparency

/-!
# The account of a dispatch

What there is to tell of a dispatch follows from what happens in it: that it starts, what each of
the clauses that are looked at comes to, and how it ends. A context takes down the part of this
account that it traces. Nothing else of a dispatch depends on what is traced.
-/
namespace Unwinding

/-- The event is among those that are traced. -/
def Environment.traces (env : Environment) (e : Event) : Bool :=
  env.config.tracing.categories.contains e.category

namespace Pad

/-- What clauses come to one after the other, up to the one that decides, and what they come to in
the end. All before the one that decides come to zero, and one that fails comes to no selector. -/
inductive Tries (yields : Nat → Clause → Except Fault Selector → Prop) (cs : List Clause) :
    List Selector → Except Fault Selector → Prop
  | failed {k c f} (hc : cs[k]? = some c) (hp : PassedOver yields cs k)
      (h : yields k c (.error f)) : Tries yields cs (List.replicate k .none) (.error f)
  | matched {k c v} (hc : cs[k]? = some c) (hp : PassedOver yields cs k) (h : yields k c (.ok v))
      (hv : v ≠ .none) : Tries yields cs (List.replicate k .none ++ [v]) (.ok v)
  | missed (hp : PassedOver yields cs cs.length) :
      Tries yields cs (List.replicate cs.length .none) (.ok .none)

/-- One event for each selector, numbered from `i` on. -/
def evaluations (p : Pad) : Nat → List Clause → List Selector → List Event
  | i, c :: cs, v :: vs => .evaluated p.name i c.kind v :: p.evaluations (i + 1) cs vs
  | _, _, _ => []

/-- How a dispatch with this result closes. After a fault it does not. -/
def closing (p : Pad) : Except Fault Outcome → List Event
  | .ok (.landed record v) => [.fired p.name v record]
  | .ok (.resume e) => [.propagated p.name e.header]
  | .error _ => []

/-- `Block p yields e result es`: the events `es` are the full account of a dispatch that has read
the exception `e` and ends with `result`. -/
inductive Block (p : Pad) (yields : Nat → Clause → Except Fault Selector → Prop)
    (e : ThrownException) (result : Except Fault Outcome) : List Event → Prop
  | intro {vs r} (htries : Tries yields p.clauses vs r)
      (hfault : ∀ f, r = .error f → result = .error f)
      (hlanded : ∀ record v, result = .ok (.landed record v) → r = .ok v)
      (hresume : ∀ e', result = .ok (.resume e') → r = .ok .none ∧ e' = e) :
      Block p yields e result (.entered p.name e.header p.clauses.length p.cleanup ::
        p.evaluations 0 p.clauses vs ++ p.closing result)

section Unique
variable {p : Pad} {yields : Nat → Clause → Except Fault Selector → Prop} {cs : List Clause}
  {vs vs' : List Selector} {r r' : Except Fault Selector}

/-- Where each clause has one result, the clauses are tried in one way. -/
theorem Tries.unique (hf : ∀ k c r r', yields k c r → yields k c r' → r = r')
    (h : Tries yields cs vs r) (h' : Tries yields cs vs' r') : vs = vs' ∧ r = r' := by
  -- no clause is passed over that does not come to zero
  have hstop {k k' : Nat} {c : Clause} {r : Except Fault Selector} (hc : cs[k]? = some c)
      (h : yields k c r) (hr : r ≠ .ok .none) (hp : PassedOver yields cs k') : k' ≤ k :=
    Nat.le_of_not_lt fun hk => hr (hf k c _ _ h (hp k hk c hc))
  have hsame {k k' : Nat} {c c' : Clause} {r r' : Except Fault Selector} (hc : cs[k]? = some c)
      (hp : PassedOver yields cs k) (h : yields k c r) (hr : r ≠ .ok .none)
      (hc' : cs[k']? = some c') (hp' : PassedOver yields cs k') (h' : yields k' c' r')
      (hr' : r' ≠ .ok .none) : k = k' ∧ r = r' := by
    obtain rfl : k = k' := Nat.le_antisymm (hstop hc' h' hr' hp) (hstop hc h hr hp')
    obtain rfl := Option.some.inj (hc.symm.trans hc')
    exact ⟨rfl, hf k c _ _ h h'⟩
  have hmissed {k : Nat} {c : Clause} {r : Except Fault Selector} (hc : cs[k]? = some c)
      (h : yields k c r) (hr : r ≠ .ok .none) : ¬ PassedOver yields cs cs.length := fun hp =>
    Nat.not_lt.2 (hstop hc h hr hp) (List.getElem?_eq_some_iff.1 hc).1
  have herror (f : Fault) : (.error f : Except Fault Selector) ≠ .ok .none := nofun
  have hok {v : Selector} (hv : v ≠ .none) : (.ok v : Except Fault Selector) ≠ .ok .none :=
    fun h => hv (Except.ok.inj h)
  cases h with
  | failed hc hp h =>
    cases h' with
    | failed hc' hp' h' =>
      obtain ⟨rfl, hr⟩ := hsame hc hp h (herror _) hc' hp' h' (herror _)
      exact ⟨rfl, hr⟩
    | matched hc' hp' h' hv' =>
      exact nomatch (hsame hc hp h (herror _) hc' hp' h' (hok hv')).2
    | missed hp' => exact absurd hp' (hmissed hc h (herror _))
  | matched hc hp h hv =>
    cases h' with
    | failed hc' hp' h' => exact nomatch (hsame hc hp h (hok hv) hc' hp' h' (herror _)).2
    | matched hc' hp' h' hv' =>
      obtain ⟨rfl, hr⟩ := hsame hc hp h (hok hv) hc' hp' h' (hok hv')
      exact ⟨by rw [Except.ok.inj hr], hr⟩
    | missed hp' => exact absurd hp' (hmissed hc h (hok hv))
  | missed hp =>
    cases h' with
    | failed hc' _ h' => exact absurd hp (hmissed hc' h' (herror _))
    | matched hc' _ h' hv' => exact absurd hp (hmissed hc' h' (hok hv'))
    | missed => exact ⟨rfl, rfl⟩

theorem Block.unique {e : ThrownException} {result : Except Fault Outcome} {es es' : List Event}
    (hf : ∀ k c r r', yields k c r → yields k c r' → r = r') (h : p.Block yields e result es)
    (h' : p.Block yields e result es') : es = es' := by
  cases h with
  | intro htries =>
    cases h' with
    | intro htries' => rw [(htries.unique hf htries').1]

end Unique

/-! ## The account, computed -/

/-- What the clauses from index `i` on come to, up to the one that decides. -/
def selectors (verdict : Nat → Clause → Except Fault Selector) : Nat → List Clause → List Selector
  | _, [] => []
  | i, c :: cs =>
    match verdict i c with
    | .error _ => []
    | .ok v => v :: if v.isMatch then [] else selectors verdict (i + 1) cs

def account (p : Pad) (verdict : Nat → Clause → Except Fault Selector) (e : ThrownException)
    (result : Except Fault Outcome) : List Event :=
  .entered p.name e.header p.clauses.length p.cleanup ::
    p.evaluations 0 p.clauses (selectors verdict 0 p.clauses) ++ p.closing result

variable {p : Pad} {verdict : Nat → Clause → Except Fault Selector} {env : Environment}

/-- A clause that comes to zero goes before those behind it. -/
private theorem Tries.cons {yields : Nat → Clause → Except Fault Selector → Prop} {c : Clause}
    {cs : List Clause} {vs : List Selector} {r : Except Fault Selector}
    (hc : yields 0 c (.ok .none)) (h : Tries (fun k => yields (k + 1)) cs vs r) :
    Tries yields (c :: cs) (.none :: vs) r := by
  cases h with
  | @failed k d f hd hp h =>
    exact .failed (k := k + 1) (by simpa using hd) (passedOver_cons.2 ⟨hc, hp⟩) h
  | @matched k d v hd hp h hv =>
    exact .matched (k := k + 1) (by simpa using hd) (passedOver_cons.2 ⟨hc, hp⟩) h hv
  | missed hp => exact .missed (passedOver_cons.2 ⟨hc, hp⟩)

private theorem tries_selectors (i : Nat) (cs : List Clause) :
    Tries (fun k c r => verdict (i + k) c = r) cs (selectors verdict i cs)
      (choice verdict i cs) := by
  induction cs generalizing i with
  | nil => exact .missed passedOver_zero
  | cons c cs ih =>
    rw [selectors, choice]
    cases hv : verdict i c with
    | error f => exact .failed (k := 0) rfl passedOver_zero hv
    | ok v =>
      cases hm : v.isMatch with
      | true =>
        have hmatched : Tries (fun k c r => verdict (i + k) c = r) (c :: cs) [v] (.ok v) :=
          .matched (k := 0) rfl passedOver_zero hv (Selector.isMatch_iff.1 hm)
        simpa [hm] using hmatched
      | false =>
        obtain rfl : v = .none := by simpa [Selector.isMatch] using hm
        have hrest := ih (i + 1)
        rw [← verdict_shift] at hrest
        simpa [hm] using Tries.cons hv hrest

/-! ## What a dispatch takes down -/

variable {s : Scene} {world : Collaborators} {frame : Frame} {q : Progress} {e : ThrownException}
  {stack : Address}

theorem noted_events (env : Environment) (e : Event) (q : Progress) :
    (env.noted e q).events = q.events ++ [e].filter env.traces := by
  rw [Environment.noted]
  cases h : env.config.tracing.categories.contains e.category <;> simp [Environment.traces, h]

theorem surveyed_events (i : Nat) (cs : List Clause) (q : Progress) :
    (p.surveyed env s i cs q).events = q.events ++
      (p.evaluations i cs
        (selectors (verdictAt s q.consultation.held) i cs)).filter env.traces := by
  induction cs generalizing i q with
  | nil => simp [surveyed, evaluations]
  | cons c cs ih =>
    rw [surveyed, selectors]
    cases hv : verdictAt s q.consultation.held i c with
    | error f => simp [visited, hv, evaluations]
    | ok v =>
      have hvisited : (p.visited env s i c q).events =
          q.events ++ [.evaluated p.name i c.kind v].filter env.traces := by
        rw [visited, hv]
        exact noted_events env _ _
      cases hm : v.isMatch with
      | true => simpa [hm, evaluations] using hvisited
      | false =>
        simp only [hm, Bool.false_eq_true, if_false, evaluations, ih, verdictAt_visited, hvisited]
        rw [List.append_assoc, ← List.filter_append, List.singleton_append]

/-- A dispatch takes down the part of its account that is traced. -/
theorem dispatch_events (he : frame.exception p.exceptionSlot = .ok e)
    (hs : frame.stack p.stackSlot = .ok stack) :
    (Action.final (p.dispatch world env frame q)).events = q.events ++
      (p.account (verdictAt (env.scene world frame stack e.header) q.consultation.held) e
        (Action.result (p.dispatch world env frame q))).filter env.traces := by
  have hdecided : (p.decided world env frame e stack q).events = q.events ++
      (.entered p.name e.header p.clauses.length p.cleanup :: p.evaluations 0 p.clauses
        (selectors (verdictAt (env.scene world frame stack e.header) q.consultation.held) 0
          p.clauses)).filter env.traces := by
    rw [decided, surveyed_events, noted_events, noted_consultation, List.append_assoc,
      ← List.filter_append, List.singleton_append]
  have hclosed (r : Except Fault Outcome) :
      q.events ++ (p.account (verdictAt (env.scene world frame stack e.header)
          q.consultation.held) e r).filter env.traces =
        (p.decided world env frame e stack q).events ++ (p.closing r).filter env.traces := by
    rw [hdecided, account, List.filter_append, List.append_assoc]
  rw [hclosed, dispatch_of_read he hs]
  cases choice (verdictAt (env.scene world frame stack e.header) q.consultation.held) 0
      p.clauses with
  | error f => simp [Action.final, Action.result, closing]
  | ok v =>
    dsimp only
    cases v.isMatch || p.cleanup with
    | false => exact noted_events env _ _
    | true =>
      simp only [if_true]
      cases world.resolve env.resolver frame p.destination with
      | error f => simp [Action.final, Action.result, closing]
      | ok d =>
        dsimp only
        cases Record.write ⟨e.header, v⟩ env.config.layout d
            (p.decided world env frame e stack q).memory with
        | error f m => simp [Action.final, Action.result, closing]
        | ok record m => exact noted_events env _ _

/-- What the end of a dispatch says about its clauses. -/
private theorem choice_of_outcome {resolve : Operand → Except Fault Address} {l : Layout}
    {m : Memory} {r : Except Fault Outcome}
    (hr : (p.ending verdict resolve l m e).1.outcome = r) :
    (∀ f, choice verdict 0 p.clauses = .error f → r = .error f) ∧
      (∀ record v, r = .ok (.landed record v) → choice verdict 0 p.clauses = .ok v) ∧
      ∀ e', r = .ok (.resume e') → choice verdict 0 p.clauses = .ok .none ∧ e' = e := by
  have hchoice {r : Except Fault Selector}
      (h : Chooses (fun k c r => verdict k c = r) p.clauses r) :
      choice verdict 0 p.clauses = r := (chooses_iff 0).1 (by simpa only [Nat.zero_add] using h)
  have hends : p.Ends (fun k c r => verdict k c = r) resolve l m e
      (p.ending verdict resolve l m e).1 (p.ending verdict resolve l m e).2 := ends_iff.2 rfl
  subst hr
  generalize p.ending verdict resolve l m e = computed at hends
  obtain ⟨x, m'⟩ := computed
  cases hends with
  | undecided h => simp [Exit.outcome, hchoice h]
  | resumed h => simp [Exit.outcome, hchoice h]
  | unplaced h | unencodable h | refused h | landed h => simp [Exit.outcome, hchoice h.1]

/-- The account of a dispatch is a block. -/
theorem block_account (he : frame.exception p.exceptionSlot = .ok e)
    (hs : frame.stack p.stackSlot = .ok stack) :
    p.Block (Asked q.consultation.held (env.scene world frame stack e.header)) e
      (Action.result (p.dispatch world env frame q))
      (p.account (verdictAt (env.scene world frame stack e.header) q.consultation.held) e
        (Action.result (p.dispatch world env frame q))) := by
  have htries := @tries_selectors
    (verdictAt (env.scene world frame stack e.header) q.consultation.held) 0 p.clauses
  simp only [Nat.zero_add] at htries
  obtain ⟨hfault, hlanded, hresume⟩ := choice_of_outcome
    (@dispatch_ending p world env frame q e stack he hs).1.symm
  rw [asked_eq]
  exact .intro htries hfault hlanded hresume

end Pad

/-! ## Contexts -/

namespace Environment

/-- The same environment, but for what is traced, and to where. -/
def withTracing (env : Environment) (t : TracingConfig) : Environment :=
  { env with config := { env.config with tracing := t } }

end Environment

theorem Pad.Exits.withTracing {p : Pad} {world : Collaborators} {env : Environment} {frame : Frame}
    {held : Holdings} {m m' : Memory} {x : Exit} (h : p.Exits world env frame held m x m')
    (t : TracingConfig) : p.Exits world (env.withTracing t) frame held m x m' := by
  cases h with
  | noException he => exact .noException he
  | noStack he hs => exact .noStack he hs
  | read he hs h => exact .read he hs h

namespace Context
variable {c c' : Context} {world : Collaborators} {p : Pad} {held : Holdings} {frame : Frame}
  {m : Memory} {e : ThrownException} {stack : Address} {t : TracingConfig}

theorem events_of_read (d : Scratch) (he : frame.exception p.exceptionSlot = .ok e)
    (hs : frame.stack p.stackSlot = .ok stack) :
    c.events world p frame m held =
      (p.account (Pad.verdictAt (c.environment.scene world frame stack e.header) held) e
        (c.dispatch world p held frame m d).result).filter c.environment.traces :=
  Pad.dispatch_events (q := ⟨⟨held, c.acquisitions, []⟩, m, []⟩) he hs

theorem events_unread (h : ∀ e stack, frame.exception p.exceptionSlot = .ok e →
      frame.stack p.stackSlot ≠ .ok stack) : c.events world p frame m held = [] := by
  rw [events]
  cases he : frame.exception p.exceptionSlot with
  | error f => rw [Pad.dispatch_of_noException he]; rfl
  | ok e =>
    cases hs : frame.stack p.stackSlot with
    | error f => rw [Pad.dispatch_of_noStack he hs]; rfl
    | ok stack => exact absurd hs (h e stack he)

theorem block_events (d : Scratch) (he : frame.exception p.exceptionSlot = .ok e)
    (hs : frame.stack p.stackSlot = .ok stack) (hall : ∀ e, c.environment.traces e = true) :
    p.Block (Pad.Asked held (c.environment.scene world frame stack e.header)) e
      (c.dispatch world p held frame m d).result (c.events world p frame m held) := by
  rw [events_of_read d he hs, List.filter_eq_self.2 fun e _ => hall e]
  exact Pad.block_account (q := ⟨⟨held, c.acquisitions, []⟩, m, []⟩) he hs

/-- Between contexts that differ in what they trace, a dispatch makes no difference but in what is
taken down. -/
theorem dispatch_withTracing (henv : c'.environment = c.environment.withTracing t)
    (hacq : c'.acquisitions = c.acquisitions) (d d' : Scratch) :
    let r := c.dispatch world p held frame m d
    let r' := c'.dispatch world p held frame m d'
    r'.result = r.result ∧ r'.memory = r.memory ∧ r'.held = r.held ∧ r'.asked = r.asked ∧
      r'.context.acquisitions = r.context.acquisitions := by
  intro r r'
  obtain ⟨x, hx, hr⟩ := c.exists_exit world p held frame m d
  obtain ⟨hresult, hmemory⟩ :=
    c'.dispatch_of_exits world p held frame m d' (henv ▸ hx.withTracing t)
  refine ⟨hresult.trans hr, hmemory, ?_⟩
  obtain ⟨e, stack, he, hs⟩ | hun := p.reads_or frame
  · have h := @dispatch_consultation c world p held frame m d e stack he hs
    have h' := @dispatch_consultation c' world p held frame m d' e stack he hs
    have hscene : c'.environment.scene world frame stack e.header =
        c.environment.scene world frame stack e.header := by rw [henv]; rfl
    simp only [visited, hscene, hacq] at h h'
    exact ⟨h'.1.trans h.1.symm, h'.2.2.trans h.2.2.symm, h'.2.1.trans h.2.1.symm⟩
  · have h := @dispatch_unread c world p held frame m d hun
    have h' := @dispatch_unread c' world p held frame m d' hun
    rw [hacq] at h'
    exact ⟨h'.1.trans h.1.symm, h'.2.2.trans h.2.2.symm, h'.2.1.trans h.2.1.symm⟩

theorem evaluate_withTracing (henv : c'.environment = c.environment.withTracing t)
    (hacq : c'.acquisitions = c.acquisitions) (clause : Clause) (k : Nat) (stack header : Address) :
    let r := c.evaluate world clause k held frame stack header
    let r' := c'.evaluate world clause k held frame stack header
    r'.result = r.result ∧ r'.held = r.held ∧ r'.asked = r.asked ∧
      r'.context.acquisitions = r.context.acquisitions := by
  simp only [evaluate, henv, hacq]
  exact ⟨rfl, rfl, rfl, rfl⟩

/-- The events that are taken down are, of those that tracing everything takes down, the ones that
are traced. -/
theorem events_withTracing (henv : c'.environment = c.environment.withTracing t)
    (hacq : c'.acquisitions = c.acquisitions) (hall : ∀ e, c'.environment.traces e = true) :
    c.events world p frame m held =
      (c'.events world p frame m held).filter c.environment.traces := by
  obtain ⟨e, stack, he, hs⟩ | hun := p.reads_or frame
  · have hscene : c'.environment.scene world frame stack e.header =
        c.environment.scene world frame stack e.header := by rw [henv]; rfl
    rw [events_of_read {} he hs, events_of_read {} he hs, hscene,
      (dispatch_withTracing henv hacq {} {}).1,
      List.filter_eq_self (p := c'.environment.traces).2 fun e _ => hall e]
  · rw [events_unread hun, events_unread hun, List.filter_nil]

end Context

end Unwinding
