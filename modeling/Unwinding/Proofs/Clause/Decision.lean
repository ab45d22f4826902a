import Unwinding.Context
import Unwinding.Proofs.Pad.Scan
import Unwinding.SymbolTable

/-!
# The entry that decides a clause

A clause looks at its entries in order and passes over those whose type the matcher rejects. The
first entry that it does not pass over decides: null and an accepted type make a filter come to zero,
a fault of the resolver or of the matcher is the fault of the clause, and what stands behind has no
part in it. Where no entry fails, a filter asks only whether one of its entries is admitted, so it
sees its entries as a set.
-/
namespace Unwinding

namespace Scene
variable (s : Scene) (m : MatcherId) (o : Operand)

/-- The operand stands for a type, and this is what matcher `m` makes of it. -/
def Answers (type : Address) (answer : Except Fault Bool) : Prop :=
  s.resolve o = .ok type ∧ type ≠ .null ∧ s.world.canCatch m (s.query type) = answer

def Rejects : Prop := ∃ type, s.Answers m o type (.ok false)

/-- The operand stands for null, which admits every exception, or for a type that is accepted. -/
def Admits : Prop := s.resolve o = .ok .null ∨ ∃ type, s.Answers m o type (.ok true)

/-- The resolver fails on the operand, or the matcher on its type. -/
def Faults (f : Fault) : Prop := s.resolve o = .error f ∨ ∃ type, s.Answers m o type (.error f)

/-- Of the entries `os`, all before the one at `k` are rejected. -/
def PassesTo (os : List Operand) (k : Nat) : Prop := ∀ x ∈ os.take k, s.Rejects m x

/-- The entry at `k` is `o`, and all before it are rejected. -/
def ComesTo (os : List Operand) (k : Nat) (o : Operand) : Prop :=
  os[k]? = some o ∧ s.PassesTo m os k

variable {s m o}

/-- What each judgement says of the two collaborators. -/
theorem judge_eq_iff {j : Judgement} : s.judge m o = j ↔
    match j with
    | .null => s.resolve o = .ok .null
    | .caught type => s.Answers m o type (.ok true)
    | .spared type => s.Answers m o type (.ok false)
    | .unresolved f => s.resolve o = .error f
    | .unanswered type f => s.Answers m o type (.error f) := by
  rw [judge_eq]
  cases hr : s.resolve o with
  | error f => cases j <;> simp [Answers, hr]
  | ok type =>
    by_cases hn : type = .null
    · cases j <;> simp +contextual [Answers, hr, hn, @eq_comm _ Address.null]
    · have hquery {type' : Address} {answer : Except Fault Bool} :
          s.Answers m o type' answer ↔
            type = type' ∧ s.world.canCatch m (s.query type) = answer := by
        rw [Answers, hr]
        constructor
        · rintro ⟨⟨rfl⟩, -, h⟩
          exact ⟨rfl, h⟩
        · rintro ⟨rfl, h⟩
          exact ⟨rfl, hn, h⟩
      simp only [hn, if_false, hquery]
      cases s.world.canCatch m (s.query type) with
      | error f => cases j <;> simp [hn]
      | ok b => cases b <;> cases j <;> simp [hn]

theorem spares_judge_iff : Clause.Spares (s.judge m · = ·) o ↔ s.Rejects m o := by
  simp only [Clause.Spares, judge_eq_iff, Rejects]

theorem satisfies_judge_iff : Clause.Satisfies (s.judge m · = ·) o ↔ s.Admits m o := by
  simp only [Clause.Satisfies, judge_eq_iff, Admits]

theorem fails_judge_iff {f : Fault} : Clause.Fails (s.judge m · = ·) o f ↔ s.Faults m o f := by
  simp only [Clause.Fails, judge_eq_iff, Faults]

theorem reaches_judge_iff {c : Clause} :
    c.Reaches (s.judge m · = ·) o ↔ ∃ k, s.ComesTo m c.types k o := by
  constructor
  · rintro ⟨before, after, hos, hb⟩
    refine ⟨before.length, by simp [hos], fun x hx => ?_⟩
    rw [hos, List.take_left] at hx
    exact spares_judge_iff.1 (hb x hx)
  · rintro ⟨k, hk, hb⟩
    obtain ⟨hlt, rfl⟩ := List.getElem?_eq_some_iff.1 hk
    refine ⟨c.types.take k, c.types.drop (k + 1), ?_, fun x hx => spares_judge_iff.2 (hb x hx)⟩
    rw [← List.drop_eq_getElem_cons hlt, List.take_append_drop]

end Scene

/-! ## The results of a clause -/

namespace Clause
variable {judge : Operand → Judgement → Prop} {os : List Operand}

theorem yields_error_iff {c : Clause} {f : Fault} :
    c.Yields judge (.error f) ↔ ∃ o, c.Reaches judge o ∧ Fails judge o f := by
  constructor
  · intro h
    cases h with
    | @catchFailed o _ h => exact ⟨o, ⟨[], [], rfl, by simp⟩, h⟩
    | @filterFailed os before o after _ hos hb h => exact ⟨o, ⟨before, after, hos, hb⟩, h⟩
  · rintro ⟨o, ⟨before, after, hos, hb⟩, h⟩
    cases c with
    | filtering os => exact .filterFailed hos hb h
    | catching o' =>
      -- a catch clause has no entry but its first
      obtain ⟨rfl, rfl⟩ : before = [] ∧ o' = o := by
        cases before with
        | nil => exact ⟨rfl, (List.cons.inj hos).1⟩
        | cons x xs => simp [types] at hos
      exact .catchFailed h

theorem yields_none_iff : (filtering os).Yields judge (.ok .none) ↔
    ∃ o, (filtering os).Reaches judge o ∧ Satisfies judge o := by
  constructor
  · generalize hv : Selector.none = v
    intro h
    cases h with
    | filtered => exact absurd hv (by decide)
    | @satisfied os before o after hos hb h => exact ⟨o, ⟨before, after, hos, hb⟩, h⟩
  · rintro ⟨o, ⟨before, after, hos, hb⟩, h⟩
    exact .satisfied hos hb h

theorem yields_filter_iff :
    (filtering os).Yields judge (.ok .filter) ↔ ∀ o ∈ os, Spares judge o := by
  constructor
  · generalize hv : Selector.filter = v
    intro h
    cases h with
    | filtered h => exact h
    | satisfied => exact absurd hv (by decide)
  · exact .filtered

end Clause

/-! ## Evaluation -/

namespace Scene
variable {s : Scene} {m : MatcherId} {o : Operand} {os os' : List Operand} {r : Except Fault Selector}

theorem Answers.unique {type type' : Address} {answer answer' : Except Fault Bool}
    (h : s.Answers m o type answer) (h' : s.Answers m o type' answer') :
    type = type' ∧ answer = answer' := by
  obtain rfl := Except.ok.inj (h.1.symm.trans h'.1)
  exact ⟨rfl, h.2.2.symm.trans h'.2.2⟩

theorem Admits.not_rejects (h : s.Admits m o) : ¬ s.Rejects m o := by
  rintro ⟨type, hr⟩
  rcases h with h | ⟨type', h⟩
  · exact hr.2.1 (Except.ok.inj (hr.1.symm.trans h))
  · exact nomatch (hr.unique h).2

theorem ComesTo.mem {k : Nat} (h : s.ComesTo m os k o) : o ∈ os := List.mem_of_getElem? h.1

/-- What an evaluation that asks matcher `m` makes of a clause. -/
def Makes (s : Scene) (m : MatcherId) (clause : Clause) (r : Except Fault Selector) : Prop :=
  clause.Yields (s.judge m · = ·) r

theorem result_evaluate_iff {i : Nat} {c : Consultation} {clause : Clause} :
    Action.result (clause.evaluate s i c) = r ↔
      s.Makes (c.held.matcherOr s.matcher i) clause r := by
  rw [Makes, Clause.yields_iff, evaluate_eq]
  cases clause.verdict (s.judge (c.held.matcherOr s.matcher i)) <;> rfl

theorem Makes.unique {clause : Clause} {r' : Except Fault Selector} (h : s.Makes m clause r)
    (h' : s.Makes m clause r') : r = r' := (Clause.yields_iff.1 h).symm.trans (Clause.yields_iff.1 h')

/-- An entry that fails is the fault of its clause if all before it are rejected. -/
theorem makes_error_iff {clause : Clause} {f : Fault} :
    s.Makes m clause (.error f) ↔ ∃ k o, s.ComesTo m clause.types k o ∧ s.Faults m o f := by
  rw [Makes, Clause.yields_error_iff]
  simp only [reaches_judge_iff, fails_judge_iff]
  constructor
  · rintro ⟨o, ⟨k, hk⟩, h⟩
    exact ⟨k, o, hk, h⟩
  · rintro ⟨k, o, hk, h⟩
    exact ⟨o, ⟨k, hk⟩, h⟩

theorem makes_none_iff :
    s.Makes m (.filtering os) (.ok .none) ↔ ∃ k o, s.ComesTo m os k o ∧ s.Admits m o := by
  rw [Makes, Clause.yields_none_iff]
  simp only [reaches_judge_iff, satisfies_judge_iff, Clause.types]
  constructor
  · rintro ⟨o, ⟨k, hk⟩, h⟩
    exact ⟨k, o, hk, h⟩
  · rintro ⟨k, o, hk, h⟩
    exact ⟨o, ⟨k, hk⟩, h⟩

theorem makes_filter_iff :
    s.Makes m (.filtering os) (.ok .filter) ↔ ∀ o ∈ os, s.Rejects m o := by
  rw [Makes, Clause.yields_filter_iff]
  simp only [spares_judge_iff]

theorem Makes.filtering_cases (h : s.Makes m (.filtering os) r) :
    r = .ok .filter ∨ r = .ok .none ∨ ∃ f, r = .error f := by
  cases h with
  | filtered => exact .inl rfl
  | satisfied => exact .inr (.inl rfl)
  | filterFailed => exact .inr (.inr ⟨_, rfl⟩)

/-- Where no entry fails, only the set of entries counts. -/
theorem Makes.of_mem_iff {r' : Except Fault Selector} (h : s.Makes m (.filtering os) r)
    (h' : s.Makes m (.filtering os') r') (hmem : ∀ o, o ∈ os ↔ o ∈ os')
    (hf : ∀ o ∈ os, ∀ f, ¬ s.Faults m o f) : r = r' := by
  rcases h.filtering_cases with rfl | rfl | ⟨f, rfl⟩
  · have hall := makes_filter_iff.1 h
    exact (makes_filter_iff.2 fun o ho => hall o ((hmem o).2 ho)).unique h'
  · obtain ⟨k, o, hk, ha⟩ := makes_none_iff.1 h
    rcases h'.filtering_cases with rfl | rfl | ⟨f, rfl⟩
    · exact absurd (makes_filter_iff.1 h' o ((hmem o).1 hk.mem)) ha.not_rejects
    · rfl
    · obtain ⟨k', o', hk', hfault⟩ := makes_error_iff.1 h'
      exact absurd hfault (hf o' ((hmem o').2 hk'.mem) f)
  · obtain ⟨k, o, hk, hfault⟩ := makes_error_iff.1 h
    exact absurd hfault (hf o hk.mem f)

theorem makes_catching_of_null (h : s.resolve o = .ok .null) :
    s.Makes m (.catching o) (.ok .catchAll) :=
  .catchAll (judge_eq_iff (j := .null).2 h)

theorem makes_catching_of_accepted {type : Address} (h : s.Answers m o type (.ok true)) :
    s.Makes m (.catching o) (.ok (.ofType type)) :=
  .caught (judge_eq_iff (j := .caught type).2 h) (Selector.toInt_ofType type)

theorem makes_catching_of_rejects (h : s.Rejects m o) : s.Makes m (.catching o) (.ok .none) :=
  .missed (spares_judge_iff.2 h)

/-- A catch clause has no entry but its first. -/
theorem makes_catching_error_iff {f : Fault} :
    s.Makes m (.catching o) (.error f) ↔ s.Faults m o f := by
  rw [makes_error_iff]
  constructor
  · rintro ⟨k, o', hk, h⟩
    obtain rfl : o' = o := List.mem_singleton.1 hk.mem
    exact h
  · exact fun h => ⟨0, o, ⟨rfl, by simp [PassesTo]⟩, h⟩

end Scene

/-- A filter goes by its first entry that the matcher does not reject, whatever stands behind it, and
by nothing but the set of its entries where none fails. A catch clause goes by its one entry. -/
theorem Context.evaluate_goes_by_first_unrejected (c : Context) (world : Collaborators) (i : Nat)
    (held : Holdings) (frame : Frame) (stack header : Address) :
    let s : Scene := ⟨world, c.environment.resolver, c.environment.matcher, frame, stack, header⟩
    let m := held.matcherOr c.environment.matcher i
    let evaluated (clause : Clause) := c.evaluate world clause i held frame stack header
    (∀ os,
      ((evaluated (.filtering os)).result = .ok .filter ↔ ∀ o ∈ os, s.Rejects m o) ∧
      ((evaluated (.filtering os)).result = .ok .none ↔
        ∃ k o, s.ComesTo m os k o ∧ s.Admits m o) ∧
      (∀ f, (evaluated (.filtering os)).result = .error f ↔
        ∃ k o, s.ComesTo m os k o ∧ s.Faults m o f) ∧
      ∀ v, (evaluated (.filtering os)).result = .ok v → v = .filter ∨ v = .none) ∧
    (∀ o,
      (s.resolve o = .ok .null → (evaluated (.catching o)).result = .ok .catchAll ∧
        (evaluated (.catching o)).asked = []) ∧
      (∀ f, (evaluated (.catching o)).result = .error f ↔ s.Faults m o f) ∧
      (∀ type, s.Answers m o type (.ok true) →
        (evaluated (.catching o)).result = .ok (.ofType type)) ∧
      (s.Rejects m o → (evaluated (.catching o)).result = .ok .none)) ∧
    (∀ type, (Selector.ofType type).code.toInt = Int.bmod type.toNat UInt32.size ∧
      (Selector.ofType type = .none ↔ type.toNat % UInt32.size = 0)) ∧
    ∀ os os', (∀ o, o ∈ os ↔ o ∈ os') → (∀ o ∈ os, ∀ f, ¬ s.Faults m o f) →
      (evaluated (.filtering os)).result = (evaluated (.filtering os')).result := by
  intro s m evaluated
  have hresult {clause : Clause} {r : Except Fault Selector} :
      (evaluated clause).result = r ↔ s.Makes m clause r :=
    Scene.result_evaluate_iff (c := ⟨held, c.acquisitions, []⟩)
  refine ⟨fun os => ?_, fun o => ?_, fun type => ⟨Selector.toInt_ofType type,
    Selector.ofType_eq_none_iff⟩, fun os os' hmem hf => ?_⟩
  · refine ⟨hresult.trans Scene.makes_filter_iff, hresult.trans Scene.makes_none_iff,
      fun f => hresult.trans Scene.makes_error_iff, fun v hv => ?_⟩
    rcases (hresult.1 hv).filtering_cases with h | h | ⟨f, h⟩
    · exact .inl (Except.ok.inj h)
    · exact .inr (Except.ok.inj h)
    · cases h
  · refine ⟨fun h => ⟨hresult.2 (Scene.makes_catching_of_null h), ?_⟩,
      fun f => hresult.trans Scene.makes_catching_error_iff,
      fun type h => hresult.2 (Scene.makes_catching_of_accepted h),
      fun h => hresult.2 (Scene.makes_catching_of_rejects h)⟩
    have hasked := s.asked_evaluate i (.catching o) ⟨held, c.acquisitions, []⟩
    rw [Clause.askedTypes, Scene.judge_eq_iff (j := .null).2 h] at hasked
    exact hasked
  · exact (hresult.1 rfl).of_mem_iff (hresult.1 rfl) hmem hf

/-- Entries of each kind, in orders that tell. -/
theorem Context.evaluate_mixed_entries :
    let c : Context := ⟨⟨{}, ⟨0⟩, ⟨0⟩⟩, none, 0⟩
    let world : Collaborators := ⟨fun _ frame o => SymbolTable.empty.resolve frame o,
      fun _ q => .ok (q.type == ⟨0x700000020⟩)⟩
    let evaluated (clause : Clause) := c.evaluate world clause 0 {} ⟨[]⟩ ⟨0x10⟩ ⟨0x9000⟩
    let rejected : Operand := .address ⟨0x10⟩
    let accepted : Operand := .address ⟨0x700000020⟩
    (evaluated (.filtering [rejected, .null, .symbol "T"])).result = .ok .none ∧
    (evaluated (.filtering [rejected, .symbol "T", .null])).result =
      .error (.unresolvedSymbol "T") ∧
    (evaluated (.filtering [rejected, accepted, rejected])).result =
      (evaluated (.filtering [accepted, rejected])).result ∧
    (evaluated (.catching accepted)).result = .ok ⟨0x20⟩ ∧
    (evaluated (.catching .null)).asked = [] ∧
    (evaluated (.catching rejected)).result = .ok .none := by
  intro c world evaluated rejected accepted
  obtain ⟨hfilter, hcatch, -, hset⟩ :=
    Context.evaluate_goes_by_first_unrejected c world 0 {} ⟨[]⟩ ⟨0x10⟩ ⟨0x9000⟩
  have hfirst (os : List Operand) (x : Operand) (hx : x ∈ (rejected :: os).take 1) :
      Scene.Rejects ⟨world, ⟨0⟩, ⟨0⟩, ⟨[]⟩, ⟨0x10⟩, ⟨0x9000⟩⟩ ⟨0⟩ x := by
    obtain rfl := List.mem_singleton.1 hx
    exact ⟨_, rfl, by decide, rfl⟩
  refine ⟨(hfilter _).2.1.2 ⟨1, .null, ⟨rfl, hfirst _⟩, .inl rfl⟩,
    ((hfilter _).2.2.1 _).2 ⟨1, .symbol "T", ⟨rfl, hfirst _⟩, .inl rfl⟩, hset _ _ ?_ ?_,
    (hcatch accepted).2.2.1 _ ⟨rfl, by decide, rfl⟩, ((hcatch .null).1 rfl).2,
    (hcatch rejected).2.2.2 (hfirst [] rejected (by simp))⟩
  · intro o
    simp [or_comm]
  · rintro o ho f (h | ⟨type, -, -, h⟩)
    · have ho : o = rejected ∨ o = accepted := by simpa [or_comm] using ho
      rcases ho with rfl | rfl <;> cases h
    · cases h

end Unwinding
