import Mathlib
import Unwinding.Proofs.Clause.Decision
import Unwinding.Proofs.Pad.Exit
import Unwinding.Proofs.TypeGraph.Derivation
import Unwinding.Session.Command
import Unwinding.SymbolTable

/-!
# Dispatch over tables that change

The collaborators of a context are a type graph and a symbol table, and both are written to between
the dispatches of its pads. `Runtime.Judges` reads off a row of steps alone what an operand comes to:
of all that was written under a key the last counts. A dispatch decides by these judgements, whatever
dispatches came before it.
-/
namespace Unwinding

/-- A context, the tables behind its collaborators, and the pads that are used under it. -/
structure Runtime where
  graph : TypeGraph
  symbols : SymbolTable
  context : Context
  pads : List BuiltPad

namespace Runtime

inductive Step
  | registerType (type : Address) (bases : List Address)
  | registerException (header type : Address)
  | forgetException (header : Address)
  | define (name : String) (a : Address)
  | dispatch (pad : Nat) (frame : Frame) (m : Memory) (d : Scratch)

/-- New tables, and pads whose clauses hold no matcher yet. -/
def new (c : Context) (pads : List Pad) : Runtime :=
  ⟨.empty, .empty, c, pads.map fun p => { pad := p }⟩

section Run
variable (others : Collaborators)

/-- The tables stand behind the handles of the context; `others` stand behind all other handles. -/
def world (s : Runtime) : Collaborators where
  resolve id frame o :=
    if id = s.context.environment.resolver then s.symbols.resolve frame o
    else others.resolve id frame o
  canCatch id q :=
    if id = s.context.environment.matcher then s.graph.canCatch q.header q.type
    else others.canCatch id q

def dispatch (s : Runtime) (p : BuiltPad) (frame : Frame) (m : Memory) (d : Scratch) : Dispatched :=
  s.context.dispatch (s.world others) p.pad p.held frame m d

def step (s : Runtime) : Step → Runtime
  | .registerType type bases => { s with graph := s.graph.registerType type bases }
  | .registerException header type => { s with graph := s.graph.registerException header type }
  | .forgetException header => { s with graph := s.graph.forgetException header }
  | .define name a => { s with symbols := s.symbols.define name a }
  | .dispatch pad frame m d =>
    match s.pads[pad]? with
    | none => s
    | some p =>
      let r := s.dispatch others p frame m d
      { s with context := r.context, pads := s.pads.set pad { p with held := r.held } }

def run (s : Runtime) (steps : List Step) : Runtime := steps.foldl (step others) s

end Run

/-! ## What the steps say -/

/-- What a step writes under a key: the value, or none where it takes the key out. -/
def Step.bases? (type : Address) : Step → Option (Option (List Address))
  | registerType t bases => if t = type then some (some bases) else none
  | _ => none

def Step.thrown? (header : Address) : Step → Option (Option Address)
  | registerException h type => if h = header then some (some type) else none
  | forgetException h => if h = header then some none else none
  | _ => none

def Step.symbol? (name : String) : Step → Option (Option Address)
  | define n a => if n = name then some (some a) else none
  | _ => none

/-- What stands under a key after the steps, given what each of them writes there. -/
def lastWritten {α : Type} (written : Step → Option (Option α)) (steps : List Step) : Option α :=
  (steps.reverse.findSome? written).join

section History
variable (steps : List Step) (frame : Frame) (header : Address)

def basesOf (type : Address) : List Address := (lastWritten (Step.bases? type) steps).getD []

def thrownType : Option Address := lastWritten (Step.thrown? header) steps

/-- The type is reached from the other by zero or more steps to direct bases. -/
def Derives (type base : Address) : Prop :=
  Relation.ReflTransGen (fun t b => b ∈ basesOf steps t) type base

def resolve : Operand → Except Fault Address
  | .null => .ok .null
  | .address a => .ok a
  | .symbol name => (lastWritten (Step.symbol? name) steps).elim (.error (.unresolvedSymbol name)) .ok
  | .slot index => frame.pointer index

/-- What an operand comes to after the steps. -/
inductive Judges : Operand → Judgement → Prop
  | unresolved {o f} (h : resolve steps frame o = .error f) : Judges o (.unresolved f)
  | null {o} (h : resolve steps frame o = .ok .null) : Judges o .null
  | caught {o type thrown} (h : resolve steps frame o = .ok type) (hn : type ≠ .null)
      (ht : thrownType steps header = some thrown) (hd : Derives steps thrown type) :
      Judges o (.caught type)
  | spared {o type thrown} (h : resolve steps frame o = .ok type) (hn : type ≠ .null)
      (ht : thrownType steps header = some thrown) (hd : ¬ Derives steps thrown type) :
      Judges o (.spared type)
  | unanswered {o type} (h : resolve steps frame o = .ok type) (hn : type ≠ .null)
      (ht : thrownType steps header = none) :
      Judges o (.unanswered type (.unknownUnwindHeader header))

/-- What a clause comes to after the steps, at whatever index it stands. -/
def Yields (_ : Nat) (c : Clause) (r : Except Fault Selector) : Prop :=
  c.Yields (Judges steps frame header) r

/-- An operand of clause `k` is looked at: nothing before it settles what the pad comes to. -/
def Reached (p : Pad) (k : Nat) (o : Operand) : Prop :=
  ∃ c before after, p.clauses[k]? = some c ∧ c.types = before ++ o :: after ∧
    Pad.PassedOver (Yields steps frame header) p.clauses k ∧
    ∀ x ∈ before, Clause.Spares (Judges steps frame header) x

end History

/-! ## The tables after a run -/

variable {others : Collaborators} {s : Runtime} {steps : List Step}

theorem step_environment (a : Step) :
    (s.step others a).context.environment = s.context.environment := by
  cases a with
  | dispatch pad frame m d =>
    rw [step]
    split
    · rfl
    · exact Context.dispatch_environment _ _ _ _ _ _ _
  | _ => rfl

theorem run_environment : (s.run others steps).context.environment = s.context.environment := by
  induction steps generalizing s with
  | nil => rfl
  | cons a steps ih => exact ih.trans (step_environment a)

private theorem step_dispatch_tables (pad : Nat) (frame : Frame) (m : Memory) (d : Scratch) :
    (s.step others (.dispatch pad frame m d)).graph = s.graph ∧
      (s.step others (.dispatch pad frame m d)).symbols = s.symbols := by
  rw [step]
  split <;> exact ⟨rfl, rfl⟩

/-- A table holds what was written last if each step writes to it what it says. -/
private theorem run_find {α : Type} {written : Step → Option (Option α)} {find : Runtime → Option α}
    (h : ∀ s a, find (s.step others a) = (written a).getD (find s)) :
    find (s.run others steps) = (steps.reverse.findSome? written).getD (find s) := by
  induction steps generalizing s with
  | nil => rfl
  | cons a steps ih =>
    apply (ih (s := s.step others a)).trans
    rw [h, List.reverse_cons, List.findSome?_append]
    cases steps.reverse.findSome? written with
    | some v => rfl
    | none => cases hw : written a <;> simp [hw]

private theorem step_bases (type : Address) (a : Step) :
    (s.step others a).graph.bases.find? type =
      (a.bases? type).getD (s.graph.bases.find? type) := by
  cases a with
  | registerType t bases =>
    by_cases h : t = type <;>
      simp [step, TypeGraph.registerType, Step.bases?, Table.find?_insert, h, @eq_comm _ type]
  | dispatch pad frame m d =>
    rw [(step_dispatch_tables pad frame m d).1]
    rfl
  | _ => rfl

private theorem step_thrown (header : Address) (a : Step) :
    (s.step others a).graph.thrownType header =
      (a.thrown? header).getD (s.graph.thrownType header) := by
  cases a with
  | registerException h type =>
    by_cases hh : h = header <;>
      simp [step, TypeGraph.registerException, TypeGraph.thrownType, Step.thrown?,
        Table.find?_insert, hh, @eq_comm _ header]
  | forgetException h =>
    by_cases hh : h = header
    · simp [step, TypeGraph.forgetException, TypeGraph.thrownType, Step.thrown?, hh]
    · simp [step, TypeGraph.forgetException, TypeGraph.thrownType, Step.thrown?, hh,
        Table.find?_erase_of_ne _ (Ne.symm hh)]
  | dispatch pad frame m d =>
    rw [(step_dispatch_tables pad frame m d).1]
    rfl
  | _ => rfl

private theorem step_symbol (name : String) (a : Step) :
    (s.step others a).symbols.lookup name = (a.symbol? name).getD (s.symbols.lookup name) := by
  cases a with
  | define n a =>
    by_cases h : n = name <;>
      simp [step, SymbolTable.define, SymbolTable.lookup, Step.symbol?, Table.find?_insert, h,
        @eq_comm _ name]
  | dispatch pad frame m d =>
    rw [(step_dispatch_tables pad frame m d).2]
    rfl
  | _ => rfl

section New
variable (c : Context) (pads : List Pad) (others : Collaborators) (steps : List Step)

private theorem lastWritten_eq {α : Type} {written : Step → Option (Option α)}
    (find : Runtime → Option α) (h : ∀ s a, find (s.step others a) = (written a).getD (find s))
    (hnew : find (new c pads) = none) :
    find ((new c pads).run others steps) = lastWritten written steps := by
  rw [run_find h, hnew, lastWritten]
  cases steps.reverse.findSome? written <;> rfl

theorem basesOf_run (type : Address) :
    ((new c pads).run others steps).graph.basesOf type = basesOf steps type := by
  rw [basesOf, TypeGraph.basesOf]
  congr 1
  exact lastWritten_eq c pads others steps (fun s => s.graph.bases.find? type)
    (fun _ a => step_bases type a) rfl

theorem thrownType_run (header : Address) :
    ((new c pads).run others steps).graph.thrownType header = thrownType steps header :=
  lastWritten_eq c pads others steps (fun s => s.graph.thrownType header)
    (fun _ a => step_thrown header a) rfl

theorem lookup_run (name : String) :
    ((new c pads).run others steps).symbols.lookup name = lastWritten (Step.symbol? name) steps :=
  lastWritten_eq c pads others steps (fun s => s.symbols.lookup name)
    (fun _ a => step_symbol name a) rfl

theorem resolve_run (frame : Frame) (o : Operand) :
    ((new c pads).run others steps).symbols.resolve frame o = resolve steps frame o := by
  cases o with
  | symbol name =>
    rw [SymbolTable.resolve, lookup_run, resolve]
    cases lastWritten (Step.symbol? name) steps <;> rfl
  | _ => rfl

theorem isDerivedFrom_run (type base : Address) :
    ((new c pads).run others steps).graph.isDerivedFrom type base = true ↔
      Derives steps type base := by
  rw [TypeGraph.isDerivedFrom_iff_derives, TypeGraph.Derives, Derives]
  simp only [basesOf_run]

/-- What the matcher answers after a run. -/
theorem canCatch_run (header type : Address) :
    ((new c pads).run others steps).graph.canCatch header type =
      match thrownType steps header with
      | none => .error (.unknownUnwindHeader header)
      | some t => .ok (((new c pads).run others steps).graph.isDerivedFrom t type) := by
  cases ht : thrownType steps header <;> simp [TypeGraph.canCatch, thrownType_run, ht]

end New

/-! ## The pads after a run -/

/-- No clause of a pad asks another matcher than that of the context. -/
def Faithful (s : Runtime) : Prop :=
  ∀ p ∈ s.pads, ∀ i,
    p.held.matcherOr s.context.environment.matcher i = s.context.environment.matcher

theorem faithful_new (c : Context) (pads : List Pad) : (new c pads).Faithful := by
  intro p hp i
  obtain ⟨q, -, rfl⟩ := List.mem_map.1 hp
  rfl

theorem Faithful.step (h : s.Faithful) (a : Step) : (s.step others a).Faithful := by
  rw [Faithful, step_environment]
  cases a with
  | dispatch pad frame m d =>
    rw [Runtime.step]
    cases hp : s.pads[pad]? with
    | none => exact h
    | some q =>
      intro p hmem i
      rcases List.mem_or_eq_of_mem_set hmem with hmem | rfl
      · exact h p hmem i
      · exact (Context.matcherOr_dispatch _ _ _ _ _ _ d i).trans (h q (List.mem_of_getElem? hp) i)
  | _ => exact h

theorem Faithful.run (h : s.Faithful) : (s.run others steps).Faithful := by
  induction steps generalizing s with
  | nil => exact h
  | cons a steps ih => exact ih (h.step a)

/-! ## Judgements -/

section Judgement
variable (c : Context) (pads : List Pad) (others : Collaborators) (steps : List Step) (frame : Frame)
  (stack header : Address)

/-- What the clauses see after a run. -/
private def sceneAfter : Scene :=
  let s := (new c pads).run others steps
  s.context.environment.scene (s.world others) frame stack header

private theorem sceneAfter_resolve (o : Operand) :
    (sceneAfter c pads others steps frame stack header).resolve o = resolve steps frame o := by
  rw [← resolve_run c pads others steps frame o]
  exact if_pos rfl

private theorem sceneAfter_matcher :
    (sceneAfter c pads others steps frame stack header).matcher = c.environment.matcher :=
  congrArg Environment.matcher run_environment

private theorem sceneAfter_canCatch (type : Address) :
    let s := sceneAfter c pads others steps frame stack header
    s.world.canCatch s.matcher (s.query type) =
      ((new c pads).run others steps).graph.canCatch header type := if_pos rfl

private theorem judge_iff (o : Operand) (j : Judgement) :
    (sceneAfter c pads others steps frame stack header).judge c.environment.matcher o = j ↔
      Judges steps frame header o j := by
  rw [Scene.judge_eq, sceneAfter_resolve, ← sceneAfter_matcher c pads others steps frame stack header]
  simp only [sceneAfter_canCatch, canCatch_run]
  have hderived := isDerivedFrom_run c pads others steps
  constructor
  · rintro rfl
    cases h : resolve steps frame o with
    | error f => exact .unresolved h
    | ok type =>
      by_cases hn : type = .null
      · subst hn
        exact .null h
      · simp only [hn, if_false]
        cases ht : thrownType steps header with
        | none => exact .unanswered h hn ht
        | some t =>
          dsimp only
          cases hd : ((new c pads).run others steps).graph.isDerivedFrom t type with
          | true => exact .caught h hn ht ((hderived t type).1 hd)
          | false => exact .spared h hn ht fun hd' => by simp [(hderived t type).2 hd'] at hd
  · intro h
    cases h with
    | unresolved h => simp only [h]
    | null h => simp [h]
    | caught h hn ht hd =>
      have hb := (hderived _ _).2 hd
      simp [h, ht, hn, hb]
    | spared h hn ht hd =>
      have hb := Bool.eq_false_iff.2 fun hb => hd ((hderived _ _).1 hb)
      simp [h, ht, hn, hb]
    | unanswered h hn ht => simp [h, ht, hn]

private theorem judges_eq :
    (fun o j =>
      (sceneAfter c pads others steps frame stack header).judge c.environment.matcher o = j) =
      Judges steps frame header := by
  funext o j
  exact propext (judge_iff c pads others steps frame stack header o j)

end Judgement

/-! ## Dispatch -/

/-- Only what was written last decides, not what earlier dispatches have asked. -/
private theorem exits_run {c : Context} {pads : List Pad} {p : BuiltPad} {frame : Frame} {m m' : Memory}
    {e : ThrownException} {stack : Address} {x : Exit}
    (hp : p ∈ ((new c pads).run others steps).pads)
    (he : frame.exception p.pad.exceptionSlot = .ok e)
    (hs : frame.stack p.pad.stackSlot = .ok stack) :
    p.pad.Exits (((new c pads).run others steps).world others)
        ((new c pads).run others steps).context.environment frame p.held m x m' ↔
      p.pad.Ends (Yields steps frame e.header) (resolve steps frame) c.environment.config.layout m e
        x m' := by
  let scene := sceneAfter c pads others steps frame stack e.header
  have hasked : Pad.Asked p.held scene = Yields steps frame e.header := by
    funext k clause r
    have hk : p.held.matcherOr scene.matcher k = c.environment.matcher :=
      ((faithful_new c pads).run p hp k).trans
        (sceneAfter_matcher c pads others steps frame stack e.header)
    rw [Pad.Asked, hk, judges_eq, Yields]
  have hresolve : scene.resolve = resolve steps frame :=
    funext fun o => sceneAfter_resolve c pads others steps frame stack e.header o
  have hlayout : ((new c pads).run others steps).context.environment.config.layout =
      c.environment.config.layout := congrArg (·.config.layout) run_environment
  rw [← hasked, ← hresolve, ← hlayout]
  constructor
  · intro h
    cases h with
    | noException he' => simp [he] at he'
    | noStack he' hs' => simp [hs] at hs'
    | read he' hs' h =>
      obtain rfl := Except.ok.inj (he.symm.trans he')
      obtain rfl := Except.ok.inj (hs.symm.trans hs')
      exact h
  · exact fun h => .read he hs h

/-- A clause fails on the first type that it asks about if the header is not registered. -/
private theorem yields_of_reached {frame : Frame} {header type : Address} {o : Operand} {clause : Clause}
    {before after : List Operand} (hos : clause.types = before ++ o :: after)
    (hb : ∀ x ∈ before, Clause.Spares (Judges steps frame header) x)
    (hj : Judges steps frame header o (.unanswered type (.unknownUnwindHeader header))) :
    clause.Yields (Judges steps frame header) (.error (.unknownUnwindHeader header)) :=
  Clause.yields_error_iff.2 ⟨o, ⟨before, after, hos, hb⟩, .inr ⟨type, hj⟩⟩

/-- After any steps, a dispatch that has read its exception and its stack decides by the last entries
of the tables. Without an entry for the header it fails on the first type that it comes to. -/
theorem dispatch_decides_by_last_entries (c : Context) (pads : List Pad) (others : Collaborators)
    (steps : List Step) (p : BuiltPad) (frame : Frame) (m m' : Memory) (d : Scratch)
    (e : ThrownException) (stack : Address) (r : Except Fault Outcome)
    (hp : p ∈ ((new c pads).run others steps).pads)
    (he : frame.exception p.pad.exceptionSlot = .ok e)
    (hs : frame.stack p.pad.stackSlot = .ok stack) :
    let left := ((new c pads).run others steps).dispatch others p frame m d
    (left.result = r ∧ left.memory = m' ↔
      ∃ x, p.pad.Ends (Yields steps frame e.header) (resolve steps frame)
        c.environment.config.layout m e x m' ∧ x.outcome = r) ∧
    (thrownType steps e.header = none → ∀ k o type, Reached steps frame e.header p.pad k o →
      resolve steps frame o = .ok type → type ≠ .null →
        left.result = .error (.unknownUnwindHeader e.header)) := by
  intro left
  let s := (new c pads).run others steps
  have hends {x n} (h : p.pad.Ends (Yields steps frame e.header) (resolve steps frame)
      c.environment.config.layout m e x n) : left.result = x.outcome ∧ left.memory = n :=
    s.context.dispatch_of_exits (s.world others) p.pad p.held frame m d ((exits_run hp he hs).2 h)
  refine ⟨⟨?_, ?_⟩, ?_⟩
  · rintro ⟨rfl, rfl⟩
    obtain ⟨x, h, hr⟩ := s.context.exists_exit (s.world others) p.pad p.held frame m d
    exact ⟨x, (exits_run hp he hs).1 h, hr⟩
  · rintro ⟨x, h, rfl⟩
    exact hends h
  · rintro ht k o type ⟨clause, before, after, hk, hos, hpass, hb⟩ ho hn
    have hj : Judges steps frame e.header o (.unanswered type (.unknownUnwindHeader e.header)) :=
      .unanswered ho hn ht
    exact (hends (.undecided (.failed hk hpass (yields_of_reached hos hb hj)))).1

/-- A symbol and an exception are entered anew after a first dispatch; one header has no entry. -/
theorem dispatch_after_new_entries :
    let base := MemoryConfig.baseFor .bits64
    let c : Context := ⟨⟨{}, ⟨0⟩, ⟨0⟩⟩, none, 0⟩
    let others : Collaborators := ⟨fun _ _ _ => .ok .null, fun _ _ => .ok false⟩
    let pad : Pad := ⟨"pad", 0, 1, .address base, [.catching (.symbol "T")], false⟩
    let frame (header : Address) : Frame :=
      ⟨[some (.exception ⟨0, header⟩), some (.stack ⟨0x10⟩)]⟩
    let m := Action.final (Memory.alloc 16 (.new (.forWidth .bits64)))
    let steps : List Step := [.registerType ⟨0x20⟩ [⟨0x700000010⟩], .registerException ⟨0x9000⟩ ⟨0x30⟩,
      .define "T" ⟨0x40⟩, .dispatch 0 (frame ⟨0x9000⟩) m {}, .registerException ⟨0x9000⟩ ⟨0x20⟩,
      .define "T" ⟨0x700000010⟩]
    let s := (new c [pad]).run others steps
    let p : BuiltPad := ⟨pad, ⟨[(0, ⟨0⟩)]⟩⟩
    p ∈ s.pads ∧
    (s.dispatch others p (frame ⟨0x9000⟩) m {}).result = .ok (.landed base ⟨0x10⟩) ∧
    (∃ x, pad.Ends (Yields steps (frame ⟨0x9000⟩) ⟨0x9000⟩) (resolve steps (frame ⟨0x9000⟩))
      {} m ⟨0, ⟨0x9000⟩⟩ x (s.dispatch others p (frame ⟨0x9000⟩) m {}).memory ∧
      x.outcome = .ok (.landed base ⟨0x10⟩)) ∧
    (s.dispatch others p (frame ⟨0x9100⟩) m {}).result =
      .error (.unknownUnwindHeader ⟨0x9100⟩) := by
  intro base c others pad frame m steps s p
  have hp : p ∈ s.pads := by
    have hs : s.pads = [p] := by cbv
    rw [hs]
    exact List.mem_singleton_self p
  have hr : (s.dispatch others p (frame ⟨0x9000⟩) m {}).result = .ok (.landed base ⟨0x10⟩) := by
    cbv
  have hreached : Reached steps (frame ⟨0x9100⟩) ⟨0x9100⟩ pad 0 (.symbol "T") :=
    ⟨_, [], [], rfl, rfl, Pad.passedOver_zero, by simp⟩
  have ht : thrownType steps ⟨0x9100⟩ = none := by cbv
  have ho : resolve steps (frame ⟨0x9100⟩) (.symbol "T") = .ok ⟨0x700000010⟩ := by cbv
  refine ⟨hp, hr, ?_, ?_⟩
  · exact (dispatch_decides_by_last_entries c [pad] others steps p (frame ⟨0x9000⟩) m _ {}
      ⟨0, ⟨0x9000⟩⟩ ⟨0x10⟩ _ hp rfl rfl).1.1 ⟨hr, rfl⟩
  · exact (dispatch_decides_by_last_entries c [pad] others steps p (frame ⟨0x9100⟩) m m {}
      ⟨0, ⟨0x9100⟩⟩ ⟨0x10⟩ (.ok (.resume ⟨0, ⟨0x9100⟩⟩)) hp rfl rfl).2 ht 0 _ _ hreached ho (by decide)

end Runtime

end Unwinding
