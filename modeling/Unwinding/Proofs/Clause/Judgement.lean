import Unwinding.Clause.Evaluation

/-!
# What a clause makes of an exception

Each operand of a clause comes to a judgement: it stands for null, its type catches the exception or
spares it, or one of the two collaborators fails on it. `Clause.Yields` says, without an order of
evaluation, to what judgements on its operands a clause owes its selector or its fault. Evaluation
comes to that very result, and the matcher that it asks is the same before and after.
-/
namespace Unwinding

inductive Judgement
  | null
  | caught (type : Address)
  | spared (type : Address)
  /-- The resolver has no address for the operand. -/
  | unresolved (f : Fault)
  /-- The matcher has no answer about the type. -/
  | unanswered (type : Address) (f : Fault)

namespace Judgement

/-- The types that the matcher is asked about before this judgement is known. -/
def asked : Judgement → List Address
  | caught type | spared type | unanswered type _ => [type]
  | null | unresolved _ => []

/-- What a catch clause comes to on an operand. -/
def catchVerdict : Judgement → Except Fault Selector
  | null => .ok .catchAll
  | caught type => .ok (.ofType type)
  | spared _ => .ok .none
  | unresolved f | unanswered _ f => .error f

/-- What a filter clause comes to at an operand; nothing if it goes on to the next. -/
def filterStop : Judgement → Option (Except Fault Selector)
  | null | caught _ => some (.ok .none)
  | spared _ => none
  | unresolved f | unanswered _ f => some (.error f)

end Judgement

/-! ## The selector of a clause -/

namespace Clause

section Relation
variable (judge : Operand → Judgement → Prop)

def Spares (o : Operand) : Prop := ∃ type, judge o (.spared type)

/-- A filter that comes to such an operand is satisfied. -/
def Satisfies (o : Operand) : Prop := judge o .null ∨ ∃ type, judge o (.caught type)

def Fails (o : Operand) (f : Fault) : Prop :=
  judge o (.unresolved f) ∨ ∃ type, judge o (.unanswered type f)

/-- What a clause can come to, given the judgements on its operands. A type that is caught gives its
low word, read in two's complement. -/
inductive Yields : Clause → Except Fault Selector → Prop
  | catchAll {o} (h : judge o .null) : Yields (catching o) (.ok ⟨1⟩)
  | caught {o type v} (h : judge o (.caught type))
      (hv : v.code.toInt = Int.bmod type.toNat UInt32.size) : Yields (catching o) (.ok v)
  | missed {o} (h : Spares judge o) : Yields (catching o) (.ok ⟨0⟩)
  | catchFailed {o f} (h : Fails judge o f) : Yields (catching o) (.error f)
  | filtered {os} (h : ∀ o ∈ os, Spares judge o) : Yields (filtering os) (.ok ⟨-1⟩)
  | satisfied {os before o after} (hos : os = before ++ o :: after)
      (hbefore : ∀ x ∈ before, Spares judge x) (h : Satisfies judge o) :
      Yields (filtering os) (.ok ⟨0⟩)
  | filterFailed {os before o after f} (hos : os = before ++ o :: after)
      (hbefore : ∀ x ∈ before, Spares judge x) (h : Fails judge o f) :
      Yields (filtering os) (.error f)

end Relation

variable (judge : Operand → Judgement)

/-- The result of a clause, computed from the judgements on its operands. -/
def verdict : Clause → Except Fault Selector
  | catching o => (judge o).catchVerdict
  | filtering os => (os.findSome? fun o => (judge o).filterStop).getD (.ok .filter)

/-- The types that a filter asks about, in order, up to the entry at which it stops. -/
def scanned : List Operand → List Address
  | [] => []
  | o :: os => (judge o).asked ++ if (judge o).filterStop.isSome then [] else scanned os

/-- The types that a clause asks about, in order. -/
def askedTypes : Clause → List Address
  | catching o => (judge o).asked
  | filtering os => scanned judge os

variable {judge}

theorem verdict_filtering_cons (o : Operand) (os : List Operand) :
    (filtering (o :: os)).verdict judge =
      (judge o).filterStop.getD ((filtering os).verdict judge) := by
  simp only [verdict, List.findSome?_cons]
  cases (judge o).filterStop <;> rfl

private theorem spares_iff {o : Operand} :
    Spares (judge · = ·) o ↔ (judge o).filterStop = none := by
  cases h : judge o <;> simp [Spares, Judgement.filterStop, h]

private theorem satisfies_iff {o : Operand} :
    Satisfies (judge · = ·) o ↔ (judge o).filterStop = some (.ok .none) := by
  cases h : judge o <;> simp [Satisfies, Judgement.filterStop, h]

private theorem fails_iff {o : Operand} {f : Fault} :
    Fails (judge · = ·) o f ↔ (judge o).filterStop = some (.error f) := by
  cases h : judge o <;> simp [Fails, Judgement.filterStop, h]

private theorem filterStop_cases (j : Judgement) : j.filterStop = none ∨
    j.filterStop = some (.ok .none) ∨ ∃ f, j.filterStop = some (.error f) := by
  cases j <;> simp [Judgement.filterStop]

private theorem verdict_filtering_of_stop {os before after : List Operand} {o : Operand}
    {r : Except Fault Selector} (hos : os = before ++ o :: after)
    (hbefore : ∀ x ∈ before, Spares (judge · = ·) x) (h : (judge o).filterStop = some r) :
    (filtering os).verdict judge = r := by
  have hf : os.findSome? (fun o => (judge o).filterStop) = some r :=
    List.findSome?_eq_some_iff.2
      ⟨before, o, after, hos, h, fun x hx => spares_iff.1 (hbefore x hx)⟩
  simp [verdict, hf]

/-- The relation and the computation agree, so a clause has exactly one result. -/
theorem yields_iff {c : Clause} {r : Except Fault Selector} :
    c.Yields (judge · = ·) r ↔ c.verdict judge = r := by
  constructor
  · intro h
    cases h with
    | catchAll h =>
      rw [verdict, h]
      rfl
    | caught h hv =>
      rw [verdict, h, Selector.eq_ofType_iff.2 hv]
      rfl
    | missed h =>
      obtain ⟨type, h⟩ := h
      rw [verdict, h]
      rfl
    | catchFailed h =>
      rcases h with h | ⟨type, h⟩ <;>
      · rw [verdict, h]
        rfl
    | @filtered os h =>
      have hf : os.findSome? (fun o => (judge o).filterStop) = none :=
        List.findSome?_eq_none_iff.2 fun o ho => spares_iff.1 (h o ho)
      rw [verdict, hf]
      rfl
    | satisfied hos hbefore h => exact verdict_filtering_of_stop hos hbefore (satisfies_iff.1 h)
    | filterFailed hos hbefore h => exact verdict_filtering_of_stop hos hbefore (fails_iff.1 h)
  · rintro rfl
    cases c with
    | catching o =>
      rw [verdict]
      cases h : judge o with
      | null => exact .catchAll h
      | caught type => exact .caught h (Selector.toInt_ofType type)
      | spared type => exact .missed ⟨type, h⟩
      | unresolved f => exact .catchFailed (.inl h)
      | unanswered type f => exact .catchFailed (.inr ⟨type, h⟩)
    | filtering os =>
      cases hf : os.findSome? (fun o => (judge o).filterStop) with
      | none =>
        have hs := List.findSome?_eq_none_iff.1 hf
        rw [verdict, hf]
        exact .filtered fun o ho => spares_iff.2 (hs o ho)
      | some r =>
        obtain ⟨before, o, after, hos, h, hb⟩ := List.findSome?_eq_some_iff.1 hf
        have hbefore : ∀ x ∈ before, Spares (judge · = ·) x := fun x hx => spares_iff.2 (hb x hx)
        rcases filterStop_cases (judge o) with hj | hj | ⟨f, hj⟩
        · simp [hj] at h
        · obtain rfl : .ok .none = r := Option.some.inj (hj.symm.trans h)
          rw [verdict, hf]
          exact .satisfied hos hbefore (satisfies_iff.2 hj)
        · obtain rfl : .error f = r := Option.some.inj (hj.symm.trans h)
          rw [verdict, hf]
          exact .filterFailed hos hbefore (fails_iff.2 hj)

end Clause

/-! ## Evaluation -/

namespace Holdings

/-- The matcher that clause `i` asks: the one that it holds, and otherwise that of the context. -/
def matcherOr (held : Holdings) (m : MatcherId) (i : Nat) : MatcherId := (held.find? i).getD m

end Holdings

namespace Scene
variable (s : Scene)

/-- What an operand comes to when matcher `m` is asked. -/
def judge (m : MatcherId) (o : Operand) : Judgement :=
  match s.world.resolve s.resolver s.frame o with
  | .error f => .unresolved f
  | .ok type =>
    if type = .null then .null
    else match s.world.canCatch m ⟨s.stack, s.header, type⟩ with
      | .error f => .unanswered type f
      | .ok true => .caught type
      | .ok false => .spared type

/-- An evaluation resolves and asks what the judgement goes by. -/
theorem judge_eq (m : MatcherId) (o : Operand) : s.judge m o =
    match s.resolve o with
    | .error f => .unresolved f
    | .ok type =>
      if type = .null then .null
      else match s.world.canCatch m (s.query type) with
        | .error f => .unanswered type f
        | .ok true => .caught type
        | .ok false => .spared type := rfl

/-- What is left behind by a question of clause `i`. -/
def asking (i : Nat) (c : Consultation) (type : Address) : Consultation where
  held := if (c.held.find? i).isSome then c.held else c.held.insert i s.matcher
  acquisitions := if (c.held.find? i).isSome then c.acquisitions else c.acquisitions + 1
  asked := c.asked ++ [(c.held.matcherOr s.matcher i, s.query type)]

variable {s}

/-- A question may fill the place of a clause, but only with the matcher that it asks anyway. -/
@[simp] theorem matcherOr_asking (i j : Nat) (c : Consultation) (type : Address) :
    (s.asking i c type).held.matcherOr s.matcher j = c.held.matcherOr s.matcher j := by
  cases h : c.held.find? i with
  | some m => simp [asking, h]
  | none =>
    by_cases hj : j = i
    · subst hj
      simp [asking, Holdings.matcherOr, h]
    · simp [asking, Holdings.matcherOr, h, Table.find?_insert_of_ne _ hj]

@[simp] theorem matcherOr_foldl_asking (i j : Nat) (c : Consultation) (types : List Address) :
    (types.foldl (s.asking i) c).held.matcherOr s.matcher j = c.held.matcherOr s.matcher j := by
  induction types generalizing c with
  | nil => rfl
  | cons type types ih => simp [ih]

theorem ask_eq (i : Nat) (type : Address) (c : Consultation) : s.ask i type c =
    Action.settle (s.world.canCatch (c.held.matcherOr s.matcher i) (s.query type))
      (s.asking i c type) := by
  cases h : c.held.find? i with
  | some m =>
    have ha : s.acquire i c = .ok m c := by rw [acquire_apply, h]
    rw [ask_apply ha]
    simp [asking, Holdings.matcherOr, h]
  | none =>
    have ha : s.acquire i c = .ok s.matcher
        { c with held := c.held.insert i s.matcher, acquisitions := c.acquisitions + 1 } := by
      rw [acquire_apply, h]
    rw [ask_apply ha]
    simp [asking, Holdings.matcherOr, h]

/-- Both kinds of clause look at an operand in the same way: they go on by its judgement, after the
question that was put for it. -/
private theorem branch_judge {α : Type} (i : Nat) (o : Operand) (c : Consultation)
    (isNull : EStateM.Result Fault Consultation α)
    (isCaught isSpared : Address → Consultation → EStateM.Result Fault Consultation α) :
    (match s.resolve o with
      | .error f => .error f c
      | .ok type =>
        if type.isNull then isNull
        else match s.ask i type c with
          | .error f d => .error f d
          | .ok true d => isCaught type d
          | .ok false d => isSpared type d) =
      match s.judge (c.held.matcherOr s.matcher i) o with
      | .null => isNull
      | .caught type => isCaught type (s.asking i c type)
      | .spared type => isSpared type (s.asking i c type)
      | .unresolved f => .error f c
      | .unanswered type f => .error f (s.asking i c type) := by
  rw [judge_eq]
  cases s.resolve o with
  | error f => rfl
  | ok type =>
    by_cases hn : type = .null
    · simp only [Address.isNull_iff.2 hn, if_true, if_pos hn]
    · simp only [Address.isNull_iff, hn, if_false, ask_eq]
      cases s.world.canCatch (c.held.matcherOr s.matcher i) (s.query type) with
      | error f => rfl
      | ok b => cases b <;> rfl

private theorem filter_eq (i : Nat) (os : List Operand) (c : Consultation) :
    s.filter i os c =
      Action.settle ((Clause.filtering os).verdict (s.judge (c.held.matcherOr s.matcher i)))
        ((Clause.scanned (s.judge (c.held.matcherOr s.matcher i)) os).foldl (s.asking i) c) := by
  induction os generalizing c with
  | nil => rfl
  | cons o os ih =>
    rw [filter_cons, Clause.verdict_filtering_cons, Clause.scanned]
    refine (branch_judge i o c (.ok .none c) (fun _ d => .ok .none d)
      (fun _ d => s.filter i os d)).trans ?_
    cases s.judge (c.held.matcherOr s.matcher i) o with
    | null => rfl
    | caught type => rfl
    | unresolved f => rfl
    | unanswered type f => rfl
    | spared type =>
      have h := ih (s.asking i c type)
      rw [matcherOr_asking] at h
      exact h

/-- The result of an evaluation, and what it leaves behind. -/
theorem evaluate_eq (i : Nat) (clause : Clause) (c : Consultation) :
    clause.evaluate s i c =
      Action.settle (clause.verdict (s.judge (c.held.matcherOr s.matcher i)))
        ((clause.askedTypes (s.judge (c.held.matcherOr s.matcher i))).foldl (s.asking i) c) := by
  cases clause with
  | filtering os => exact filter_eq i os c
  | catching o =>
    rw [Clause.evaluate_catching, Clause.verdict, Clause.askedTypes]
    refine (branch_judge i o c (.ok Selector.catchAll c) (fun type d => .ok (.ofType type) d)
      (fun _ d => .ok .none d)).trans ?_
    cases s.judge (c.held.matcherOr s.matcher i) o <;> rfl

end Scene

end Unwinding
