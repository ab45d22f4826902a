import Mathlib
import Unwinding.Context
import Unwinding.Proofs.Pad.Choice
import Unwinding.SymbolTable

/-!
# How a dispatch ends

`Pad.Exits` lists the ends of a dispatch stage by stage, each with the conditions under which it is
reached and the memory that it leaves. What is not named in the conditions of an end has no part in
it: not the destination where the exception goes on, not the clauses behind the one that decides.
-/
namespace Unwinding

inductive Exit
  /-- The exception or the stack handle could not be read from the frame. -/
  | unread (f : Fault)
  /-- A clause failed before one matched. -/
  | undecided (f : Fault)
  | resumed (e : ThrownException)
  /-- There is no address for the destination. -/
  | unplaced (f : Fault)
  /-- The header does not fit a pointer. -/
  | unencodable (f : Fault)
  /-- Memory refused the record. -/
  | refused (f : Fault)
  | landed (record : Address) (selector : Selector)

def Exit.outcome : Exit → Except Fault Outcome
  | unread f | undecided f | unplaced f | unencodable f | refused f => .error f
  | resumed e => .ok (.resume e)
  | landed record selector => .ok (.landed record selector)

/-- What the clauses of a pad see of a context, a frame and an exception. -/
def Environment.scene (env : Environment) (world : Collaborators) (frame : Frame)
    (stack header : Address) : Scene :=
  ⟨world, env.resolver, env.matcher, frame, stack, header⟩

namespace Pad

section Relation
variable (p : Pad)

/-- The clauses come to `v`, and the pad is entered with it. -/
def Fires (yields : Nat → Clause → Except Fault Selector → Prop) (v : Selector) : Prop :=
  Chooses yields p.clauses (.ok v) ∧ (v ≠ .none ∨ p.cleanup = true)

/-- The end of a dispatch that has read its exception `e`, and the memory after it. -/
inductive Ends (yields : Nat → Clause → Except Fault Selector → Prop)
    (resolve : Operand → Except Fault Address) (l : Layout) (m : Memory) (e : ThrownException) :
    Exit → Memory → Prop
  | undecided {f} (h : Chooses yields p.clauses (.error f)) :
      Ends yields resolve l m e (.undecided f) m
  | resumed (h : Chooses yields p.clauses (.ok .none)) (hc : p.cleanup = false) :
      Ends yields resolve l m e (.resumed e) m
  | unplaced {v f} (h : p.Fires yields v) (hd : resolve p.destination = .error f) :
      Ends yields resolve l m e (.unplaced f) m
  | unencodable {v d f} (h : p.Fires yields v) (hd : resolve p.destination = .ok d)
      (he : l.encodePointer e.header = .error f) : Ends yields resolve l m e (.unencodable f) m
  | refused {v d bs f m'} (h : p.Fires yields v) (hd : resolve p.destination = .ok d)
      (he : l.encodePointer e.header = .ok bs)
      (hw : Memory.write d (bs ++ l.encodeInt32 v.code) m = .error f m') :
      Ends yields resolve l m e (.refused f) m'
  | landed {v d bs m'} (h : p.Fires yields v) (hd : resolve p.destination = .ok d)
      (he : l.encodePointer e.header = .ok bs)
      (hw : Memory.write d (bs ++ l.encodeInt32 v.code) m = .ok () m') :
      Ends yields resolve l m e (.landed d v) m'

variable (world : Collaborators) (env : Environment) (frame : Frame)

/-- What clauses come to where clause `k` asks the matcher that it holds, or else that of the
context. -/
def Asked (held : Holdings) (s : Scene) (k : Nat) (c : Clause) (r : Except Fault Selector) : Prop :=
  c.Yields (fun o j => s.judge (held.matcherOr s.matcher k) o = j) r

/-- The end of a dispatch, and the memory after it. -/
inductive Exits (held : Holdings) (m : Memory) : Exit → Memory → Prop
  | noException {f} (he : frame.exception p.exceptionSlot = .error f) :
      Exits held m (.unread f) m
  | noStack {e f} (he : frame.exception p.exceptionSlot = .ok e)
      (hs : frame.stack p.stackSlot = .error f) : Exits held m (.unread f) m
  | read {e stack x m'} (he : frame.exception p.exceptionSlot = .ok e)
      (hs : frame.stack p.stackSlot = .ok stack)
      (h : p.Ends (Asked held (env.scene world frame stack e.header))
        (world.resolve env.resolver frame) env.config.layout m e x m') :
      Exits held m x m'

end Relation

/-! ## The end, computed -/

section Computation
variable (p : Pad) (verdict : Nat → Clause → Except Fault Selector)
  (resolve : Operand → Except Fault Address) (l : Layout) (m : Memory) (e : ThrownException)

/-- The end of a pad that is entered with selector `v`. -/
def landing (v : Selector) : Exit × Memory :=
  match resolve p.destination with
  | .error f => (.unplaced f, m)
  | .ok d =>
    match l.encodePointer e.header with
    | .error f => (.unencodable f, m)
    | .ok bs =>
      match Memory.write d (bs ++ l.encodeInt32 v.code) m with
      | .error f m' => (.refused f, m')
      | .ok () m' => (.landed d v, m')

def ending : Exit × Memory :=
  match choice verdict 0 p.clauses with
  | .error f => (.undecided f, m)
  | .ok v => if v.isMatch || p.cleanup then p.landing resolve l m e v else (.resumed e, m)

variable {p verdict resolve l m e}

private theorem chooses_verdict {r : Except Fault Selector} :
    Chooses (fun k c r => verdict k c = r) p.clauses r ↔ choice verdict 0 p.clauses = r := by
  simpa only [Nat.zero_add] using @chooses_iff verdict p.clauses 0 r

private theorem ending_of_fires {v : Selector} (h : p.Fires (fun k c r => verdict k c = r) v) :
    p.ending verdict resolve l m e = p.landing resolve l m e v := by
  obtain ⟨hv, hc⟩ := h
  have hf : (v.isMatch || p.cleanup) = true := by
    simpa [Selector.isMatch_iff] using hc
  rw [ending, chooses_verdict.1 hv]
  simp only [hf, if_true]

private theorem fires_of_choice {v : Selector} (hv : choice verdict 0 p.clauses = .ok v)
    (hf : (v.isMatch || p.cleanup) = true) : p.Fires (fun k c r => verdict k c = r) v :=
  ⟨chooses_verdict.2 hv, by simpa [Selector.isMatch_iff] using hf⟩

/-- A pad that is entered ends in its landing. -/
private theorem ends_landing {v : Selector} (h : p.Fires (fun k c r => verdict k c = r) v) :
    p.Ends (fun k c r => verdict k c = r) resolve l m e (p.landing resolve l m e v).1
      (p.landing resolve l m e v).2 := by
  rw [landing]
  cases hd : resolve p.destination with
  | error f => exact .unplaced h hd
  | ok d =>
    cases he : l.encodePointer e.header with
    | error f => exact .unencodable h hd he
    | ok bs =>
      dsimp only
      cases hw : Memory.write d (bs ++ l.encodeInt32 v.code) m with
      | error f m' => exact .refused h hd he hw
      | ok u m' => exact .landed h hd he hw

private theorem ends_ending : p.Ends (fun k c r => verdict k c = r) resolve l m e
    (p.ending verdict resolve l m e).1 (p.ending verdict resolve l m e).2 := by
  cases hv : choice verdict 0 p.clauses with
  | error f =>
    rw [ending, hv]
    exact .undecided (chooses_verdict.2 hv)
  | ok v =>
    cases hf : v.isMatch || p.cleanup with
    | false =>
      obtain ⟨hm, hc⟩ := Bool.or_eq_false_iff.1 hf
      obtain rfl : v = .none := by simpa [Selector.isMatch] using hm
      have hr : p.ending verdict resolve l m e = (.resumed e, m) := by simp [ending, hv, hc]
      rw [hr]
      exact .resumed (chooses_verdict.2 hv) hc
    | true =>
      have hfire := fires_of_choice hv hf
      rw [ending_of_fires hfire]
      exact ends_landing hfire

theorem ends_iff {x : Exit} {m' : Memory} :
    p.Ends (fun k c r => verdict k c = r) resolve l m e x m' ↔
      p.ending verdict resolve l m e = (x, m') := by
  constructor
  · intro h
    cases h with
    | undecided h => rw [ending, chooses_verdict.1 h]
    | resumed h hc => simp [ending, chooses_verdict.1 h, hc]
    | unplaced h hd => simp [ending_of_fires h, landing, hd]
    | unencodable h hd he => simp [ending_of_fires h, landing, hd, he]
    | refused h hd he hw => simp [ending_of_fires h, landing, hd, he, hw]
    | landed h hd he hw => simp [ending_of_fires h, landing, hd, he, hw]
  · intro h
    have hends : p.Ends (fun k c r => verdict k c = r) resolve l m e
        (p.ending verdict resolve l m e).1 (p.ending verdict resolve l m e).2 := ends_ending
    rw [h] at hends
    exact hends

end Computation

/-! ## Dispatch -/

section Dispatch
variable {p : Pad} {world : Collaborators} {env : Environment} {frame : Frame} {q : Progress}
  {e : ThrownException} {stack : Address}

/-- A dispatch reads its exception and its stack, or it does not get to its clauses. -/
theorem reads_or (p : Pad) (frame : Frame) :
    (∃ e stack, frame.exception p.exceptionSlot = .ok e ∧ frame.stack p.stackSlot = .ok stack) ∨
      ∀ e stack, frame.exception p.exceptionSlot = .ok e → frame.stack p.stackSlot ≠ .ok stack := by
  by_cases h : ∃ e stack, frame.exception p.exceptionSlot = .ok e ∧
      frame.stack p.stackSlot = .ok stack
  · exact .inl h
  · exact .inr fun e stack he hs => h ⟨e, stack, he, hs⟩

theorem dispatch_of_noException {f : Fault} (he : frame.exception p.exceptionSlot = .error f) :
    p.dispatch world env frame q = .error f q := by
  rw [dispatch, he]
  rfl

theorem dispatch_of_noStack {f : Fault} (he : frame.exception p.exceptionSlot = .ok e)
    (hs : frame.stack p.stackSlot = .error f) : p.dispatch world env frame q = .error f q := by
  rw [dispatch, he, hs]
  rfl

/-- What a dispatch that has read its exception leaves behind before it turns to the destination. -/
def decided (p : Pad) (world : Collaborators) (env : Environment) (frame : Frame) (e : ThrownException)
    (stack : Address) (q : Progress) : Progress :=
  p.surveyed env (env.scene world frame stack e.header) 0 p.clauses
    (env.noted (.entered p.name e.header p.clauses.length p.cleanup) q)

/-- The last steps of a pad that is entered with selector `v`. -/
private theorem enter_apply (s : Scene) (e : ThrownException) (v : Selector) (q : Progress) :
    (do
      let destination ← Action.settle (s.resolve p.destination)
      let record ← Progress.store (Record.write ⟨e.header, v⟩ env.config.layout destination)
      env.emit (.fired p.name v record)
      return .landed record v : Action Progress Outcome) q =
      match s.resolve p.destination with
      | .error f => .error f q
      | .ok d =>
        match Record.write ⟨e.header, v⟩ env.config.layout d q.memory with
        | .error f m => .error f { q with memory := m }
        | .ok record m =>
          .ok (.landed record v) (env.noted (.fired p.name v record) { q with memory := m }) := by
  cases s.resolve p.destination with
  | error f => rfl
  | ok d =>
    apply (Action.bind_of_ok (Action.settle_ok d q)).trans
    dsimp only
    cases hw : Record.write ⟨e.header, v⟩ env.config.layout d q.memory with
    | error f m => exact Action.bind_of_error (Progress.store_of_error hw)
    | ok record m => exact Action.bind_of_ok (Progress.store_of_ok hw)

theorem dispatch_of_read (he : frame.exception p.exceptionSlot = .ok e)
    (hs : frame.stack p.stackSlot = .ok stack) :
    p.dispatch world env frame q =
      match choice (verdictAt (env.scene world frame stack e.header) q.consultation.held) 0
        p.clauses with
      | .error f => .error f (p.decided world env frame e stack q)
      | .ok v =>
        if v.isMatch || p.cleanup then
          match world.resolve env.resolver frame p.destination with
          | .error f => .error f (p.decided world env frame e stack q)
          | .ok d =>
            match Record.write ⟨e.header, v⟩ env.config.layout d
              (p.decided world env frame e stack q).memory with
            | .error f m => .error f { p.decided world env frame e stack q with memory := m }
            | .ok record m => .ok (.landed record v) (env.noted (.fired p.name v record)
                { p.decided world env frame e stack q with memory := m })
        else .ok (.resume e)
          (env.noted (.propagated p.name e.header) (p.decided world env frame e stack q)) := by
  have hsel := select_eq p env (env.scene world frame stack e.header) 0 p.clauses
    (env.noted (.entered p.name e.header p.clauses.length p.cleanup) q)
  rw [noted_consultation, ← decided] at hsel
  rw [dispatch, he, hs, Action.bind_of_ok (Action.settle_ok _ _),
    Action.bind_of_ok (Action.settle_ok _ _), Action.bind_of_ok (env.emit_apply _ _)]
  cases hc : choice (verdictAt (env.scene world frame stack e.header) q.consultation.held) 0
      p.clauses with
  | error f =>
    rw [hc] at hsel
    exact Action.bind_of_error hsel
  | ok v =>
    rw [hc] at hsel
    apply (Action.bind_of_ok hsel).trans
    cases hf : v.isMatch || p.cleanup with
    | false => simp only [hf]; rfl
    | true =>
      simp only [hf, if_true]
      exact enter_apply _ e v _

theorem decided_memory : (p.decided world env frame e stack q).memory = q.memory := by
  rw [decided, surveyed_memory, noted_memory]

/-- The computed end is that of the dispatch. -/
theorem dispatch_ending (he : frame.exception p.exceptionSlot = .ok e)
    (hs : frame.stack p.stackSlot = .ok stack) :
    let computed := p.ending (verdictAt (env.scene world frame stack e.header) q.consultation.held)
      (world.resolve env.resolver frame) env.config.layout q.memory e
    Action.result (p.dispatch world env frame q) = computed.1.outcome ∧
      (Action.final (p.dispatch world env frame q)).memory = computed.2 := by
  rw [dispatch_of_read he hs, ending]
  cases choice (verdictAt (env.scene world frame stack e.header) q.consultation.held) 0
      p.clauses with
  | error f => exact ⟨rfl, decided_memory⟩
  | ok v =>
    dsimp only
    cases v.isMatch || p.cleanup with
    | false => exact ⟨rfl, (noted_memory _ _ _).trans decided_memory⟩
    | true =>
      rw [landing]
      cases world.resolve env.resolver frame p.destination with
      | error f => exact ⟨rfl, decided_memory⟩
      | ok d =>
        simp only [Record.write_apply, decided_memory, if_true]
        cases env.config.layout.encodePointer e.header with
        | error f => exact ⟨rfl, rfl⟩
        | ok bs =>
          dsimp only
          cases Memory.write d (bs ++ env.config.layout.encodeInt32 v.code) q.memory with
          | error f m => exact ⟨rfl, rfl⟩
          | ok u m => exact ⟨rfl, noted_memory _ _ _⟩

/-- What follows the clauses changes nothing that they leave behind for the matchers. -/
theorem dispatch_consultation (he : frame.exception p.exceptionSlot = .ok e)
    (hs : frame.stack p.stackSlot = .ok stack) :
    (Action.final (p.dispatch world env frame q)).consultation =
      (p.decided world env frame e stack q).consultation := by
  rw [dispatch_of_read he hs]
  split
  · rfl
  · split
    · split
      · rfl
      · split
        · rfl
        · exact noted_consultation _ _ _
    · exact noted_consultation _ _ _

/-- After a dispatch each clause asks the matcher that it asked before. -/
theorem matcherOr_dispatch (i : Nat) :
    (Action.final (p.dispatch world env frame q)).consultation.held.matcherOr env.matcher i =
      q.consultation.held.matcherOr env.matcher i := by
  cases he : frame.exception p.exceptionSlot with
  | error f =>
    rw [dispatch_of_noException he]
    rfl
  | ok e =>
    cases hs : frame.stack p.stackSlot with
    | error f =>
      rw [dispatch_of_noStack he hs]
      rfl
    | ok stack =>
      rw [dispatch_consultation he hs, decided]
      apply (matcherOr_surveyed (s := env.scene world frame stack e.header) 0 i p.clauses _).trans
      rw [noted_consultation]
      rfl

theorem asked_eq (held : Holdings) (s : Scene) :
    Asked held s = fun k c r => verdictAt s held k c = r := by
  funext k c r
  exact propext Clause.yields_iff

theorem Exits.dispatch {x : Exit} {m' : Memory}
    (h : p.Exits world env frame q.consultation.held q.memory x m') :
    Action.result (p.dispatch world env frame q) = x.outcome ∧
      (Action.final (p.dispatch world env frame q)).memory = m' := by
  cases h with
  | noException he =>
    rw [dispatch_of_noException he]
    exact ⟨rfl, rfl⟩
  | noStack he hs =>
    rw [dispatch_of_noStack he hs]
    exact ⟨rfl, rfl⟩
  | read he hs h =>
    rw [asked_eq] at h
    have hd : Action.result (p.dispatch world env frame q) = _ ∧ _ := dispatch_ending he hs
    rw [ends_iff.1 h] at hd
    exact hd

/-- A dispatch has no two ends. -/
theorem Exits.unique {held : Holdings} {m m₁ m₂ : Memory} {x y : Exit}
    (hx : p.Exits world env frame held m x m₁) (hy : p.Exits world env frame held m y m₂) :
    x = y ∧ m₁ = m₂ := by
  cases hx with
  | noException he =>
    cases hy with
    | noException he' => simpa [he] using he'
    | noStack he' => simp [he] at he'
    | read he' => simp [he] at he'
  | noStack he hs =>
    cases hy with
    | noException he' => simp [he] at he'
    | noStack he' hs' => simpa [hs] using hs'
    | read he' hs' => simp [hs] at hs'
  | read he hs h =>
    cases hy with
    | noException he' => simp [he] at he'
    | noStack he' hs' => simp [hs] at hs'
    | read he' hs' h' =>
      obtain rfl := Except.ok.inj (he.symm.trans he')
      obtain rfl := Except.ok.inj (hs.symm.trans hs')
      rw [asked_eq] at h h'
      exact Prod.mk.inj ((ends_iff.1 h).symm.trans (ends_iff.1 h'))

/-- A dispatch has an end, whatever it works on. -/
theorem exists_exit (p : Pad) (world : Collaborators) (env : Environment) (frame : Frame)
    (held : Holdings) (m : Memory) : ∃ x m', p.Exits world env frame held m x m' := by
  cases he : frame.exception p.exceptionSlot with
  | error f => exact ⟨_, _, .noException he⟩
  | ok e =>
    cases hs : frame.stack p.stackSlot with
    | error f => exact ⟨_, _, .noStack he hs⟩
    | ok stack =>
      let s := env.scene world frame stack e.header
      let computed := p.ending (verdictAt s held) (world.resolve env.resolver frame)
        env.config.layout m e
      refine ⟨computed.1, computed.2, .read he hs ?_⟩
      rw [asked_eq]
      exact ends_iff.2 rfl

end Dispatch

end Pad

namespace Context
variable (c : Context) (world : Collaborators) (p : Pad) (held : Holdings) (frame : Frame)
  (m : Memory) (d : Scratch)

theorem dispatch_of_exits {x : Exit} {m' : Memory}
    (h : p.Exits world c.environment frame held m x m') :
    (c.dispatch world p held frame m d).result = x.outcome ∧
      (c.dispatch world p held frame m d).memory = m' :=
  @Pad.Exits.dispatch p world c.environment frame ⟨⟨held, c.acquisitions, []⟩, m, []⟩ x m' h

theorem exists_exit : ∃ x, p.Exits world c.environment frame held m x
      (c.dispatch world p held frame m d).memory ∧
    x.outcome = (c.dispatch world p held frame m d).result := by
  obtain ⟨x, m', h⟩ := p.exists_exit world c.environment frame held m
  obtain ⟨hr, rfl⟩ := c.dispatch_of_exits world p held frame m d h
  exact ⟨x, h, hr.symm⟩

theorem trace_environment (events : List Event) : (c.trace events d).1.environment = c.environment := by
  rw [trace]
  split <;> rfl

theorem dispatch_environment :
    (c.dispatch world p held frame m d).context.environment = c.environment := trace_environment _ _ _

theorem matcherOr_dispatch (i : Nat) :
    (c.dispatch world p held frame m d).held.matcherOr c.environment.matcher i =
      held.matcherOr c.environment.matcher i :=
  Pad.matcherOr_dispatch (q := ⟨⟨held, c.acquisitions, []⟩, m, []⟩) i

/-- A dispatch comes to an outcome and leaves a memory exactly if `Pad.Exits` says so. -/
theorem dispatch_iff_exits (r : Except Fault Outcome) (m' : Memory) :
    (c.dispatch world p held frame m d).result = r ∧
        (c.dispatch world p held frame m d).memory = m' ↔
      ∃ x, p.Exits world c.environment frame held m x m' ∧ x.outcome = r := by
  constructor
  · rintro ⟨rfl, rfl⟩
    exact c.exists_exit world p held frame m d
  · rintro ⟨x, h, rfl⟩
    exact c.dispatch_of_exits world p held frame m d h

/-- The low word of the type that is caught has its sign bit set, so the selector is negative. The
first clause holds a matcher that does not know the type, and two symbols have no address: one in a
clause, the other at the destination. -/
theorem dispatch_amid_undefined_symbols :
    let c : Context := ⟨⟨{}, ⟨3⟩, ⟨4⟩⟩, none, 0⟩
    let symbols := SymbolTable.empty.define "T" ⟨0x780000010⟩
    let world : Collaborators :=
      ⟨fun id frame o => if id = ⟨3⟩ then symbols.resolve frame o else .ok .null,
        fun id q => .ok (decide (id = ⟨4⟩ ∧ q = ⟨⟨0x10⟩, ⟨0x9000⟩, ⟨0x780000010⟩⟩))⟩
    let place : Address := ⟨0x7FFF00001000⟩
    let frame : Frame :=
      ⟨[some (.exception ⟨7, ⟨0x9000⟩⟩), some (.stack ⟨0x10⟩), some (.pointer place)]⟩
    let m := Action.final (Memory.alloc 16 (.new (.forWidth .bits64)))
    let t : Clause := .catching (.symbol "T")
    let u : Clause := .catching (.symbol "U")
    let null : Clause := .filtering [.address ⟨0⟩]
    let deciding : List Clause := [t, .filtering [.slot 2, .symbol "T"], t, u]
    let left (destination : Operand) (cs : List Clause) :=
      c.dispatch world ⟨"pad", 0, 1, destination, cs, false⟩ ⟨[(0, ⟨5⟩)]⟩ frame m {}
    ((left (.slot 2) deciding).result = .ok (.landed place ⟨-0x7FFFFFF0⟩) ∧
      (left (.slot 2) deciding).memory.read place 16 =
        .ok [0x00, 0x90, 0, 0, 0, 0, 0, 0, 0x10, 0, 0, 0x80, 0, 0, 0, 0]) ∧
    ((left (.symbol "V") deciding).result = .error (.unresolvedSymbol "V") ∧
      (left (.symbol "V") deciding).memory = m) ∧
    ((left (.symbol "V") [t, u]).result = .error (.unresolvedSymbol "U") ∧
      (left (.symbol "V") [t, u]).memory = m) ∧
    (left (.symbol "V") [t, null]).result = .ok (.resume ⟨7, ⟨0x9000⟩⟩) ∧
      (left (.symbol "V") [t, null]).memory = m := by
  intro c symbols world place frame m t u null deciding left
  let s := c.environment.scene world frame ⟨0x10⟩ ⟨0x9000⟩
  let asked := Pad.Asked ⟨[(0, ⟨5⟩)]⟩ s
  have hmissed : s.judge ⟨5⟩ (.symbol "T") = .spared ⟨0x780000010⟩ := rfl
  have hcaught : s.judge ⟨4⟩ (.symbol "T") = .caught ⟨0x780000010⟩ := rfl
  have hplace : s.judge ⟨4⟩ (.slot 2) = .spared place := rfl
  have hfirst : asked 0 t (.ok .none) := .missed ⟨_, hmissed⟩
  have hthird : asked 2 t (.ok ⟨-0x7FFFFFF0⟩) := .caught hcaught (by decide)
  have hundefined : asked 1 u (.error (.unresolvedSymbol "U")) := .catchFailed (.inl rfl)
  have hfilter : asked 1 (.filtering [.slot 2, .symbol "T"]) (.ok .none) := by
    have hb : ∀ x ∈ [Operand.slot 2], Clause.Spares (s.judge ⟨4⟩ · = ·) x := fun x hx =>
      List.mem_singleton.1 hx ▸ ⟨_, hplace⟩
    exact .satisfied (by rfl) hb (.inr ⟨_, hcaught⟩)
  have hnull : asked 1 null (.ok .none) :=
    .satisfied (by rfl) (List.forall_mem_nil (Clause.Spares (s.judge ⟨4⟩ · = ·))) (.inl rfl)
  have hone {cs : List Clause} : Pad.PassedOver asked (t :: cs) 1 :=
    Pad.passedOver_cons.2 ⟨hfirst, Pad.passedOver_zero⟩
  have htwo {clause : Clause} {cs : List Clause} (h : asked 1 clause (.ok .none)) :
      Pad.PassedOver asked (t :: clause :: cs) 2 :=
    Pad.passedOver_cons.2 ⟨hfirst, Pad.passedOver_cons.2 ⟨h, Pad.passedOver_zero⟩⟩
  have hdecides : Pad.Chooses asked deciding (.ok ⟨-0x7FFFFFF0⟩) :=
    .matched (k := 2) rfl (htwo hfilter) hthird (by decide)
  have hiff (destination : Operand) (cs : List Clause) := c.dispatch_iff_exits world
    ⟨"pad", 0, 1, destination, cs, false⟩ ⟨[(0, ⟨5⟩)]⟩ frame m {}
  refine ⟨?_, ?_, ?_, ?_⟩
  · have hheader : Layout.encodePointer {} ⟨0x9000⟩ = .ok [0x00, 0x90, 0, 0, 0, 0, 0, 0] := by cbv
    have hwrite : Action.result (Memory.write place ([0x00, 0x90, 0, 0, 0, 0, 0, 0] ++
        Layout.encodeInt32 {} (-0x7FFFFFF0)) m) = .ok () := by cbv
    obtain ⟨hresult, hmemory⟩ := (hiff (.slot 2) deciding _ _).2
      ⟨_, .read rfl rfl (.landed ⟨hdecides, .inl (by decide)⟩ rfl hheader
        (Action.eq_ok_of_result hwrite)), rfl⟩
    refine ⟨hresult, ?_⟩
    rw [hmemory]
    cbv
  · exact (hiff _ _ _ _).2 ⟨_, .read rfl rfl (.unplaced ⟨hdecides, .inl (by decide)⟩ rfl), rfl⟩
  · exact (hiff _ _ _ _).2
      ⟨_, .read rfl rfl (.undecided (.failed (k := 1) rfl hone hundefined)), rfl⟩
  · exact (hiff _ _ _ _).2 ⟨_, .read rfl rfl (.resumed (.missed (htwo hnull)) rfl), rfl⟩

end Context

end Unwinding
