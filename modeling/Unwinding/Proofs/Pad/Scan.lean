import Unwinding.Proofs.Pad.Choice

/-!
# The clauses that are looked at

A selection looks at the clauses up to the one that decides, which `Pad.scan` lists. It leaves
behind for the matchers what these clauses leave behind when each is evaluated after the other: the
questions in their order, one acquisition for each clause that had none and comes to a type, and
nothing of what was resolved or answered.
-/
namespace Unwinding

/-! ## One evaluation -/

namespace Clause
variable {s : Scene} {m : MatcherId} {c : Clause}

/-- The evaluation of a clause comes to the operand: all before it are spared. -/
def Reaches (judge : Operand → Judgement → Prop) (c : Clause) (o : Operand) : Prop :=
  ∃ before after, c.types = before ++ o :: after ∧ ∀ x ∈ before, Spares judge x

/-- An evaluation that asks matcher `m` comes to a type that is not null. -/
def Consults (s : Scene) (m : MatcherId) (c : Clause) : Prop :=
  ∃ o type, c.Reaches (s.judge m · = ·) o ∧ s.resolve o = .ok type ∧ type ≠ .null

theorem asked_judge_ne_nil_iff {o : Operand} :
    (s.judge m o).asked ≠ [] ↔ ∃ type, s.resolve o = .ok type ∧ type ≠ .null := by
  rw [Scene.judge_eq]
  cases s.resolve o with
  | error f => simp [Judgement.asked]
  | ok type =>
    by_cases hn : type = .null
    · simp [hn, Judgement.asked]
    · cases h : s.world.canCatch m (s.query type) with
      | error f => simp [h, hn, Judgement.asked]
      | ok b => cases b <;> simp [h, hn, Judgement.asked]

/-- An operand is passed over only after a question about it, so the first one tells. -/
theorem consults_iff : c.Consults s m ↔
    ∃ o os type, c.types = o :: os ∧ s.resolve o = .ok type ∧ type ≠ .null := by
  constructor
  · rintro ⟨o, type, ⟨before, after, hos, hb⟩, ho, hn⟩
    cases before with
    | nil => exact ⟨o, after, type, hos, ho, hn⟩
    | cons x before =>
      obtain ⟨t, ht⟩ := hb x List.mem_cons_self
      have hx : (s.judge m x).asked ≠ [] := by simp [ht, Judgement.asked]
      obtain ⟨type, hr, hn⟩ := asked_judge_ne_nil_iff.1 hx
      exact ⟨x, _, type, hos, hr, hn⟩
  · rintro ⟨o, os, type, hos, ho, hn⟩
    exact ⟨o, type, ⟨[], os, hos, by simp⟩, ho, hn⟩

theorem askedTypes_ne_nil_iff : c.askedTypes (s.judge m) ≠ [] ↔ c.Consults s m := by
  rw [consults_iff]
  cases c with
  | catching o =>
    rw [askedTypes, asked_judge_ne_nil_iff]
    simp [types]
  | filtering os =>
    cases os with
    | nil => simp [askedTypes, scanned, types]
    | cons o os =>
      have hstop : (s.judge m o).asked = [] → (s.judge m o).filterStop.isSome = true := by
        cases s.judge m o <;> simp [Judgement.asked, Judgement.filterStop]
      have hscan : scanned (s.judge m) (o :: os) ≠ [] ↔ (s.judge m o).asked ≠ [] := by
        rw [scanned]
        by_cases h : (s.judge m o).asked = []
        · simp [h, hstop h]
        · simp [h]
      rw [askedTypes, hscan, asked_judge_ne_nil_iff]
      simp [types]

end Clause

namespace Holdings
variable {a b c : Holdings} {n : Nat}

/-- How many of the first `n` clauses hold a matcher in the second and none in the first. -/
def gained (before after : Holdings) (n : Nat) : Nat :=
  (List.range n).countP fun k => (before.find? k).isNone && (after.find? k).isSome

/-- What is held stays held. -/
def Kept (before after : Holdings) : Prop := ∀ k m, before.find? k = some m → after.find? k = some m

theorem Kept.none {k : Nat} (h : Kept a b) (hb : b.find? k = none) : a.find? k = none := by
  cases ha : a.find? k with
  | none => rfl
  | some m => simp [h k m ha] at hb

theorem Kept.trans (h : Kept a b) (h' : Kept b c) : Kept a c := fun k m hm => h' k m (h k m hm)

@[simp] theorem gained_self (a : Holdings) (n : Nat) : gained a a n = 0 := by
  rw [gained, List.countP_eq_zero]
  intro k _
  cases a.find? k <;> simp

theorem gained_trans (h : Kept a b) (h' : Kept b c) (n : Nat) :
    gained a c n = gained a b n + gained b c n := by
  induction n with
  | zero => rfl
  | succ n ih =>
    simp only [gained] at ih ⊢
    simp only [List.range_succ, List.countP_append, List.countP_singleton]
    have hn : (if ((a.find? n).isNone && (c.find? n).isSome) = true then 1 else 0) =
        (if ((a.find? n).isNone && (b.find? n).isSome) = true then 1 else 0) +
          if ((b.find? n).isNone && (c.find? n).isSome) = true then 1 else 0 := by
      cases ha : a.find? n with
      | some m => simp [h n m ha]
      | none =>
        cases hb : b.find? n with
        | some m => simp [h' n m hb]
        | none => simp
    omega

theorem gained_insert {i : Nat} {m : MatcherId} (hi : i < n) (h : a.find? i = none) :
    gained a (a.insert i m) n = 1 := by
  have hone : ∀ k, ((a.find? k).isNone && ((a.insert i m).find? k).isSome) = (k == i) := by
    intro k
    by_cases hk : k = i
    · simp [hk, h]
    · rw [Table.find?_insert_of_ne _ hk]
      cases a.find? k <;> simp [hk]
  rw [gained, List.countP_congr fun k _ => by rw [hone k], ← List.count_eq_countP,
    List.count_range]
  simp [hi]

theorem matcherOr_of_some {i : Nat} {m m' : MatcherId} (h : a.find? i = some m') :
    a.matcherOr m i = m' := by simp [matcherOr, h]

theorem matcherOr_of_none {i : Nat} {m : MatcherId} (h : a.find? i = none) :
    a.matcherOr m i = m := by simp [matcherOr, h]

end Holdings

namespace Scene
variable {s : Scene} {i j n : Nat} {c : Consultation} {clause : Clause} {m : MatcherId}

theorem asking_of_held (h : c.held.find? i = some m) (type : Address) :
    s.asking i c type = { c with asked := c.asked ++ [(m, s.query type)] } := by
  simp [asking, Holdings.matcherOr, h]

private theorem foldl_asking_of_held (h : c.held.find? i = some m) (types : List Address) :
    types.foldl (s.asking i) c =
      { c with asked := c.asked ++ types.map fun t => (m, s.query t) } := by
  induction types generalizing c with
  | nil => simp
  | cons type types ih =>
    have hheld : (s.asking i c type).held.find? i = some m := by rw [asking_of_held h, h]
    rw [List.foldl_cons, ih hheld, asking_of_held h]
    simp

/-- The first of several questions may acquire a matcher, the others do not. -/
private theorem foldl_asking_cons (type : Address) (types : List Address) :
    (type :: types).foldl (s.asking i) c =
      { s.asking i c type with
        asked := c.asked ++
          (type :: types).map fun t => (c.held.matcherOr s.matcher i, s.query t) } := by
  have hheld : (s.asking i c type).held.find? i = some (c.held.matcherOr s.matcher i) := by
    cases h : c.held.find? i with
    | some m => simp [asking, Holdings.matcherOr, h]
    | none => simp [asking, Holdings.matcherOr, h]
  rw [List.foldl_cons, foldl_asking_of_held hheld]
  simp [asking]

theorem final_evaluate (s : Scene) (i : Nat) (clause : Clause) (c : Consultation) :
    Action.final (clause.evaluate s i c) =
      (clause.askedTypes (s.judge (c.held.matcherOr s.matcher i))).foldl (s.asking i) c := by
  rw [evaluate_eq]
  cases clause.verdict (s.judge (c.held.matcherOr s.matcher i)) <;> rfl

theorem asked_evaluate (s : Scene) (i : Nat) (clause : Clause) (c : Consultation) :
    (Action.final (clause.evaluate s i c)).asked = c.asked ++
      (clause.askedTypes (s.judge (c.held.matcherOr s.matcher i))).map
        fun t => (c.held.matcherOr s.matcher i, s.query t) := by
  rw [final_evaluate]
  cases clause.askedTypes (s.judge (c.held.matcherOr s.matcher i)) with
  | nil => simp
  | cons type types => rw [foldl_asking_cons]

/-- An evaluation fills the place of its own clause if it comes to a type, and no other place. -/
theorem held_evaluate : (Action.final (clause.evaluate s i c)).held.find? j = some m ↔
    c.held.find? j = some m ∨
      c.held.find? j = none ∧ s.matcher = m ∧ j = i ∧ clause.Consults s m := by
  rw [final_evaluate]
  cases h : c.held.find? i with
  | some m' =>
    rw [foldl_asking_of_held h]
    constructor
    · exact .inl
    · rintro (hj | ⟨hj, -, rfl, -⟩)
      · exact hj
      · simp [h] at hj
  | none =>
    rw [Holdings.matcherOr_of_none h]
    cases ht : clause.askedTypes (s.judge s.matcher) with
    | nil =>
      have hno : ¬ clause.Consults s s.matcher := fun hc => Clause.askedTypes_ne_nil_iff.2 hc ht
      constructor
      · exact .inl
      · rintro (hj | ⟨-, rfl, -, hc⟩)
        · exact hj
        · exact absurd hc hno
    | cons type types =>
      have hc : clause.Consults s s.matcher := Clause.askedTypes_ne_nil_iff.1 (by simp [ht])
      rw [foldl_asking_cons]
      by_cases hj : j = i
      · subst hj
        simp only [asking, h, Option.isSome_none, Bool.false_eq_true, if_false,
          Table.find?_insert_self, Option.some.injEq, reduceCtorEq, false_or, true_and]
        exact ⟨fun hm => ⟨hm, hm ▸ hc⟩, fun hm => hm.1⟩
      · simp [asking, h, Table.find?_insert_of_ne _ hj, hj]

theorem kept_evaluate : c.held.Kept (Action.final (clause.evaluate s i c)).held :=
  fun _ _ h => held_evaluate.2 (.inl h)

theorem acquisitions_evaluate (hi : i < n) :
    (Action.final (clause.evaluate s i c)).acquisitions =
      c.acquisitions + c.held.gained (Action.final (clause.evaluate s i c)).held n := by
  rw [final_evaluate]
  cases clause.askedTypes (s.judge (c.held.matcherOr s.matcher i)) with
  | nil => simp
  | cons type types =>
    rw [foldl_asking_cons]
    cases h : c.held.find? i with
    | some m => simp [asking, h]
    | none => simp [asking, h, Holdings.gained_insert hi h]

/-! ## Several evaluations -/

/-- What is left behind by clauses that are evaluated one after the other. -/
def consult (s : Scene) (visited : List (Nat × Clause)) (c : Consultation) : Consultation :=
  visited.foldl (fun c v => Action.final (v.2.evaluate s v.1 c)) c

variable {visited : List (Nat × Clause)}

theorem kept_consult : c.held.Kept (s.consult visited c).held := by
  induction visited generalizing c with
  | nil => exact fun _ _ h => h
  | cons v vs ih => exact kept_evaluate.trans ih

theorem held_consult : (s.consult visited c).held.find? j = some m ↔
    c.held.find? j = some m ∨
      c.held.find? j = none ∧ s.matcher = m ∧
        ∃ clause, (j, clause) ∈ visited ∧ clause.Consults s m := by
  induction visited generalizing c with
  | nil => simp [consult]
  | cons v vs ih =>
    obtain ⟨i, clause⟩ := v
    have hrest : (s.consult ((i, clause) :: vs) c) =
        s.consult vs (Action.final (clause.evaluate s i c)) := rfl
    rw [hrest, ih, held_evaluate]
    constructor
    · rintro ((hj | ⟨hj, hm, rfl, hc⟩) | ⟨hj, hm, clause', hmem, hc⟩)
      · exact .inl hj
      · exact .inr ⟨hj, hm, clause, List.mem_cons_self, hc⟩
      · exact .inr ⟨kept_evaluate.none hj, hm, clause', List.mem_cons_of_mem _ hmem, hc⟩
    · rintro (hj | ⟨hj, rfl, clause', hmem, hc⟩)
      · exact .inl (.inl hj)
      · rcases List.mem_cons.1 hmem with heq | hmem
        · obtain ⟨rfl, rfl⟩ := Prod.mk.inj heq
          exact .inl (.inr ⟨hj, rfl, rfl, hc⟩)
        · cases he : (Action.final (clause.evaluate s i c)).held.find? j with
          | none => exact .inr ⟨rfl, rfl, clause', hmem, hc⟩
          | some m' =>
            -- the head has filled the place, with the matcher that the context has for all
            rcases held_evaluate.1 he with hj' | ⟨-, rfl, hji, hc'⟩
            · simp [hj] at hj'
            · exact .inl (.inr ⟨hj, rfl, hji, hc'⟩)

/-- The questions of clauses that are evaluated in a row are those of the single evaluations. -/
theorem asked_consult : (s.consult visited c).asked = c.asked ++
    visited.flatMap fun v => (Action.final (v.2.evaluate s v.1 ⟨c.held, 0, []⟩)).asked := by
  induction visited generalizing c with
  | nil => simp [consult]
  | cons v vs ih =>
    have hrest : s.consult (v :: vs) c = s.consult vs (Action.final (v.2.evaluate s v.1 c)) := rfl
    have hmatcher : ∀ k, (Action.final (v.2.evaluate s v.1 c)).held.matcherOr s.matcher k =
        c.held.matcherOr s.matcher k := by
      intro k
      rw [final_evaluate, matcherOr_foldl_asking]
    rw [hrest, ih]
    simp only [asked_evaluate, hmatcher, List.flatMap_cons, List.nil_append, List.append_assoc]

theorem acquisitions_consult (hn : ∀ v ∈ visited, v.1 < n) :
    (s.consult visited c).acquisitions =
      c.acquisitions + c.held.gained (s.consult visited c).held n := by
  induction visited generalizing c with
  | nil => simp [consult]
  | cons v vs ih =>
    have hrest : s.consult (v :: vs) c = s.consult vs (Action.final (v.2.evaluate s v.1 c)) := rfl
    rw [hrest, ih fun w hw => hn w (List.mem_cons_of_mem _ hw),
      acquisitions_evaluate (hn v List.mem_cons_self),
      Holdings.gained_trans kept_evaluate kept_consult]
    omega

end Scene

/-! ## Selection -/

namespace Pad
variable {verdict : Nat → Clause → Except Fault Selector} {p : Pad} {env : Environment} {s : Scene}

/-- The clauses from index `i` on that are looked at, the one that decides included. -/
def scan (verdict : Nat → Clause → Except Fault Selector) : Nat → List Clause → List (Nat × Clause)
  | _, [] => []
  | i, c :: cs =>
    (i, c) :: match verdict i c with
      | .error _ => []
      | .ok v => if v.isMatch then [] else scan verdict (i + 1) cs

theorem mem_scan_iff {i j : Nat} {c : Clause} {cs : List Clause} : (j, c) ∈ scan verdict i cs ↔
    ∃ k, j = i + k ∧ cs[k]? = some c ∧ PassedOver (fun k c r => verdict (i + k) c = r) cs k := by
  induction cs generalizing i with
  | nil => simp [scan]
  | cons d cs ih =>
    rw [scan]
    constructor
    · intro h
      rcases List.mem_cons.1 h with heq | h
      · obtain ⟨rfl, rfl⟩ := Prod.mk.inj heq
        exact ⟨0, rfl, rfl, passedOver_zero⟩
      · cases hv : verdict i d with
        | error f => simp [hv] at h
        | ok v =>
          by_cases hm : v = .none
          · subst hm
            simp only [hv, Selector.isMatch_none, Bool.false_eq_true, if_false] at h
            obtain ⟨k, rfl, hc, hp⟩ := ih.1 h
            refine ⟨k + 1, by omega, hc, passedOver_cons.2 ⟨hv, ?_⟩⟩
            rw [verdict_shift]
            exact hp
          · simp [hv, Selector.isMatch_iff.2 hm] at h
    · rintro ⟨k, rfl, hc, hp⟩
      cases k with
      | zero =>
        obtain rfl : d = c := by simpa using hc
        exact List.mem_cons_self
      | succ k =>
        obtain ⟨hv, hp⟩ := passedOver_cons.1 hp
        rw [verdict_shift] at hp
        have hv : verdict i d = .ok .none := hv
        apply List.mem_cons_of_mem
        simp only [hv, Selector.isMatch_none, Bool.false_eq_true, if_false]
        exact ih.2 ⟨k, by omega, by simpa using hc, hp⟩

theorem surveyed_consultation (i : Nat) (cs : List Clause) (q : Progress) :
    (p.surveyed env s i cs q).consultation =
      s.consult (scan (verdictAt s q.consultation.held) i cs) q.consultation := by
  have hfinal (i : Nat) (c : Clause) (q : Progress) : (p.visited env s i c q).consultation =
      Action.final (c.evaluate s i q.consultation) := by
    rw [Scene.final_evaluate, visited]
    cases verdictAt s q.consultation.held i c <;> simp
  induction cs generalizing i q with
  | nil => rfl
  | cons c cs ih =>
    rw [surveyed, scan]
    cases hv : verdictAt s q.consultation.held i c with
    | error f => exact hfinal i c q
    | ok v =>
      cases hm : v.isMatch with
      | true =>
        simp only [hm, if_true]
        exact hfinal i c q
      | false =>
        simp only [hm, Bool.false_eq_true, if_false]
        rw [ih, verdictAt_visited, hfinal]
        rfl

end Pad

end Unwinding
