import Unwinding.Proofs.Pad.Deployment

/-!
# What use leaves in pads does not show

Under one context all matchers that clauses hold are the matcher of this context, so a pad that has
been used asks the very questions that a new one asks. Whether a clause still has to acquire the
matcher is then the only difference between the two, and no dispatch makes anything else of it.
-/
namespace Unwinding

/-- Clauses ask the same matchers in both, and have asked the same so far. -/
structure Consultation.Alike (m : MatcherId) (c c' : Consultation) : Prop where
  matcherOr : ∀ k, c.held.matcherOr m k = c'.held.matcherOr m k
  asked : c.asked = c'.asked

structure Progress.Alike (m : MatcherId) (q q' : Progress) : Prop where
  consultation : q.consultation.Alike m q'.consultation
  memory : q.memory = q'.memory
  events : q.events = q'.events

section Step
variable {s : Scene} {c c' : Consultation}

theorem Consultation.Alike.asking (h : c.Alike s.matcher c') (i : Nat) (type : Address) :
    (s.asking i c type).Alike s.matcher (s.asking i c' type) where
  matcherOr k := by simp [h.matcherOr k]
  asked := by simp [Scene.asking, h.matcherOr i, h.asked]

theorem Consultation.Alike.foldl_asking (h : c.Alike s.matcher c') (i : Nat)
    (types : List Address) :
    (types.foldl (s.asking i) c).Alike s.matcher (types.foldl (s.asking i) c') := by
  induction types generalizing c c' with
  | nil => exact h
  | cons type types ih => exact ih (h.asking i type)

namespace Progress.Alike
variable {m : MatcherId} {q q' : Progress} {p : Pad} {env : Environment}

theorem noted (h : q.Alike m q') (e : Event) : (env.noted e q).Alike m (env.noted e q') := by
  simp only [Environment.noted]
  split
  · exact ⟨h.consultation, h.memory, congrArg (· ++ [e]) h.events⟩
  · exact h

theorem verdictAt (h : q.Alike s.matcher q') :
    Pad.verdictAt s q.consultation.held = Pad.verdictAt s q'.consultation.held := by
  funext i c
  rw [Pad.verdictAt, h.consultation.matcherOr, Pad.verdictAt]

theorem visited (h : q.Alike s.matcher q') (i : Nat) (c : Clause) :
    (p.visited env s i c q).Alike s.matcher (p.visited env s i c q') := by
  rw [Pad.visited, Pad.visited, h.verdictAt, h.consultation.matcherOr]
  have hasked (types : List Address) : Progress.Alike s.matcher
      { q with consultation := types.foldl (s.asking i) q.consultation }
      { q' with consultation := types.foldl (s.asking i) q'.consultation } :=
    ⟨h.consultation.foldl_asking i types, h.memory, h.events⟩
  cases Pad.verdictAt s q'.consultation.held i c with
  | error f => exact hasked _
  | ok v => exact (hasked _).noted _

theorem surveyed (h : q.Alike s.matcher q') (i : Nat) (cs : List Clause) :
    (p.surveyed env s i cs q).Alike s.matcher (p.surveyed env s i cs q') := by
  induction cs generalizing i q q' with
  | nil => exact h
  | cons c cs ih =>
    have hc : (p.visited env s i c q).Alike s.matcher (p.visited env s i c q') := h.visited i c
    rw [Pad.surveyed, Pad.surveyed, h.verdictAt]
    cases Pad.verdictAt s q'.consultation.held i c with
    | error f => exact hc
    | ok v =>
      cases hv : v.isMatch with
      | true => simpa only [hv, if_true] using hc
      | false => simpa only [hv, Bool.false_eq_true, if_false] using ih hc (i + 1)

theorem withMemory (h : q.Alike m q') (memory : Memory) :
    Progress.Alike m { q with memory := memory } { q' with memory := memory } :=
  ⟨h.consultation, rfl, h.events⟩

/-- A dispatch comes to the same from both. -/
theorem dispatch (h : q.Alike env.matcher q') (p : Pad) (world : Collaborators) (frame : Frame) :
    Action.result (p.dispatch world env frame q) = Action.result (p.dispatch world env frame q') ∧
      (Action.final (p.dispatch world env frame q)).Alike env.matcher
        (Action.final (p.dispatch world env frame q')) := by
  cases he : frame.exception p.exceptionSlot with
  | error f =>
    rw [Pad.dispatch_of_noException he, Pad.dispatch_of_noException he]
    exact ⟨rfl, h⟩
  | ok e =>
    cases hs : frame.stack p.stackSlot with
    | error f =>
      rw [Pad.dispatch_of_noStack he hs, Pad.dispatch_of_noStack he hs]
      exact ⟨rfl, h⟩
    | ok stack =>
      have hd : (p.decided world env frame e stack q).Alike env.matcher
          (p.decided world env frame e stack q') :=
        (h.noted _).surveyed (s := env.scene world frame stack e.header) 0 p.clauses
      have hv : Pad.verdictAt (env.scene world frame stack e.header) q.consultation.held =
          Pad.verdictAt (env.scene world frame stack e.header) q'.consultation.held :=
        h.verdictAt
      rw [Pad.dispatch_of_read he hs, Pad.dispatch_of_read he hs, hv, hd.memory]
      cases Pad.choice (Pad.verdictAt (env.scene world frame stack e.header) q'.consultation.held) 0
          p.clauses with
      | error f => exact ⟨rfl, hd⟩
      | ok v =>
        dsimp only
        cases v.isMatch || p.cleanup with
        | false => exact ⟨rfl, hd.noted _⟩
        | true =>
          simp only [if_true]
          cases world.resolve env.resolver frame p.destination with
          | error f => exact ⟨rfl, hd⟩
          | ok d =>
            dsimp only
            cases Record.write ⟨e.header, v⟩ env.config.layout d
                (p.decided world env frame e stack q').memory with
            | error f memory => exact ⟨rfl, hd.withMemory memory⟩
            | ok record memory => exact ⟨rfl, (hd.withMemory memory).noted _⟩

end Progress.Alike

end Step

/-! ## One dispatch -/

namespace Context
variable (c : Context) (world : Collaborators) (p : Pad) (frame : Frame) (m : Memory) (d : Scratch)

/-- The events that a dispatch hands to the tracer. -/
def events (held : Holdings) : List Event :=
  (Action.final (p.dispatch world c.environment frame ⟨⟨held, c.acquisitions, []⟩, m, []⟩)).events

/-- Tracing does not look at the number of acquisitions. -/
theorem trace_withAcquisitions (n : Nat) (events : List Event) :
    Context.trace { c with acquisitions := n } events d =
      ({ (c.trace events d).1 with acquisitions := n }, (c.trace events d).2) := by
  obtain ⟨env, tracer, k⟩ := c
  cases tracer <;> rfl

/-- Of two pads whose clauses ask the same matchers, a dispatch makes the same. -/
theorem dispatch_eq_of_matcherOr {held held' : Holdings}
    (h : ∀ k, held.matcherOr c.environment.matcher k = held'.matcherOr c.environment.matcher k) :
    let r := c.dispatch world p held frame m d
    let r' := c.dispatch world p held' frame m d
    r = { r' with
      held := r.held
      context := { r'.context with acquisitions := r.context.acquisitions } } ∧
    c.events world p frame m held = c.events world p frame m held' := by
  have hstart : Progress.Alike c.environment.matcher ⟨⟨held, c.acquisitions, []⟩, m, []⟩
      ⟨⟨held', c.acquisitions, []⟩, m, []⟩ := ⟨⟨h, rfl⟩, rfl, rfl⟩
  obtain ⟨hresult, hfinal⟩ := hstart.dispatch p world frame
  refine ⟨?_, hfinal.events⟩
  simp only [dispatch, trace_withAcquisitions, hresult, hfinal.memory, hfinal.events,
    hfinal.consultation.asked]

end Context

/-! ## A pad in use -/

namespace Deployment
variable {s : Deployment} {env : Environment}

/-- There is one context, and no clause holds another matcher than its own. -/
structure Faithful (env : Environment) (s : Deployment) : Prop where
  context : ∃ c, s.contexts = [c] ∧ c.environment = env
  held : ∀ p ∈ s.pads, ∀ k m, p.held.find? k = some m → m = env.matcher

theorem faithful_new (c : Context) (pads : List Pad) : (new [c] pads).Faithful c.environment where
  context := ⟨c, rfl, rfl⟩
  held := by
    intro p hp k m hm
    obtain ⟨p, -, rfl⟩ := List.mem_map.1 hp
    cases hm

theorem Faithful.step (h : s.Faithful env) (u : Use) : (s.step u).Faithful env := by
  obtain ⟨⟨c₀, hcs, rfl⟩, hheld⟩ := h
  have hperforms := s.performs u
  generalize s.step u = s', s.asked u = asked at hperforms
  cases hperforms with
  | @consulted _ i j p c c' after scene visited hu hp hc hm hv hafter henv hacq =>
    obtain ⟨rfl, rfl⟩ : j = 0 ∧ c₀ = c := by
      simpa [hcs, List.getElem?_singleton, @eq_comm _ c] using hc
    refine ⟨⟨c', by simp [put, hcs], henv⟩, fun p' hp' k m hk => ?_⟩
    rcases List.mem_or_eq_of_mem_set hp' with hp' | rfl
    · exact hheld p' hp' k m hk
    · subst hafter
      rcases Scene.held_consult.1 hk with hk | ⟨-, rfl, -⟩
      · exact hheld p (List.mem_of_getElem? hp) k m hk
      · exact hm
  | missed => exact ⟨⟨c₀, hcs, rfl⟩, hheld⟩
  | @cloned i =>
    refine ⟨⟨c₀, hcs, rfl⟩, fun p hp k m hk => ?_⟩
    rcases List.mem_append.1 hp with hp | hp
    · exact hheld p hp k m hk
    · exact hheld p (List.mem_of_getElem? (Option.mem_toList.1 hp)) k m hk
  | @acquired j =>
    refine ⟨?_, hheld⟩
    rw [hcs]
    cases j with
    | zero => exact ⟨_, rfl, rfl⟩
    | succ j => exact ⟨c₀, by simp, rfl⟩

theorem Faithful.run (h : s.Faithful env) (uses : List Use) : (s.run uses).Faithful env := by
  induction uses generalizing s with
  | nil => exact h
  | cons u uses ih => exact ih (h.step u)

theorem Faithful.matcherOr {p : BuiltPad} (h : s.Faithful env) (hp : p ∈ s.pads) (k : Nat) :
    p.held.matcherOr env.matcher k = env.matcher := by
  cases hk : p.held.find? k with
  | none => exact Holdings.matcherOr_of_none hk
  | some m => rw [Holdings.matcherOr_of_some hk, h.held p hp k m hk]

/-- A pad that has been used under one context, with whatever else, is dispatched as a new one is:
it comes to the same result, memory and events, and asks the same questions. Only the matchers held
and the number of acquisitions tell them apart. -/
theorem dispatch_eq_new (c : Context) (pads : List Pad) (uses : List Use) (i : Nat) (p : BuiltPad)
    (world : Collaborators) (frame : Frame) (m : Memory) (d : Scratch)
    (hp : ((new [c] pads).run uses).pads[i]? = some p) :
    ∃ c', ((new [c] pads).run uses).contexts = [c'] ∧ c'.environment = c.environment ∧
      let used := c'.dispatch world p.pad p.held frame m d
      let fresh := c'.dispatch world p.pad {} frame m d
      used = { fresh with
        held := used.held
        context := { fresh.context with acquisitions := used.context.acquisitions } } ∧
      c'.events world p.pad frame m p.held = c'.events world p.pad frame m {} := by
  have h : ((new [c] pads).run uses).Faithful c.environment := (faithful_new c pads).run uses
  obtain ⟨c', hcs, henv⟩ := h.context
  refine ⟨c', hcs, henv, c'.dispatch_eq_of_matcherOr world p.pad frame m d fun k => ?_⟩
  rw [henv]
  exact h.matcherOr (List.mem_of_getElem? hp) k

/-- A clone that inherits a matcher is dispatched after the symbol of its clause has moved. The
context traces. -/
theorem dispatch_clone_eq_new :
    let c : Context := ⟨⟨.ofPreset .traced, ⟨0⟩, ⟨1⟩⟩, some (.inMemory none 16), 0⟩
    let pad : Pad := ⟨"pad", 0, 1, .null, [.catching (.symbol "T")], false⟩
    let frame : Frame := ⟨[some (.exception ⟨0, ⟨0x9000⟩⟩), some (.stack ⟨0x10⟩)]⟩
    let world (t : Address) : Collaborators :=
      ⟨fun _ _ o => .ok (if o = .null then .null else t), fun _ q => .ok (q.type == ⟨0x20⟩)⟩
    let m : Memory := .new (.forWidth .bits64)
    let p : BuiltPad := ⟨pad, ⟨[(0, ⟨1⟩)]⟩⟩
    let s := (new [c] [pad]).run [.evaluate (world ⟨0x20⟩) 0 0 0 frame ⟨0x10⟩ ⟨0x9000⟩, .clone 0]
    s.pads[1]? = some p ∧ ∃ c', s.contexts = [c'] ∧ c'.acquisitions = 1 ∧
      (c'.dispatch (world ⟨0x30⟩) pad p.held frame m {}).asked =
        (c'.dispatch (world ⟨0x30⟩) pad {} frame m {}).asked ∧
      (c'.dispatch (world ⟨0x30⟩) pad p.held frame m {}).context.tracer =
        (c'.dispatch (world ⟨0x30⟩) pad {} frame m {}).context.tracer := by
  intro c pad frame world m p s
  have hp : s.pads[1]? = some p := by cbv
  have hacq : s.contexts.map (·.acquisitions) = [1] := by cbv
  obtain ⟨c', hcs, -, heq, -⟩ := dispatch_eq_new c [pad] _ 1 p (world ⟨0x30⟩) frame m {} hp
  refine ⟨hp, c', hcs, ?_, congrArg (·.asked) heq, congrArg (·.context.tracer) heq⟩
  simpa [s, hcs] using hacq

end Deployment

end Unwinding
