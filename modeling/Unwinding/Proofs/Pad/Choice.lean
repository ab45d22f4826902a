import Unwinding.Pad.Dispatch
import Unwinding.Proofs.Clause.Judgement

/-!
# The clause that decides

`Pad.Chooses` says what a list of clauses comes to, given what each of them comes to by itself: the
fault or the selector of the first clause that does not come to zero, and zero if there is none.
Clauses behind that one are not spoken of. The selection of a pad comes to the same result; it
leaves memory alone, and no clause asks another matcher after it than before.
-/
namespace Unwinding

namespace Pad

section Relation
variable (yields : Nat → Clause → Except Fault Selector → Prop) (cs : List Clause)

/-- All clauses before the one at index `k` come to zero. -/
def PassedOver (k : Nat) : Prop := ∀ j < k, ∀ c, cs[j]? = some c → yields j c (.ok .none)

/-- What the clauses come to, where `yields k c` says it of the clause `c` at index `k`. -/
inductive Chooses : Except Fault Selector → Prop
  | failed {k c f} (hc : cs[k]? = some c) (hp : PassedOver yields cs k) (h : yields k c (.error f)) :
      Chooses (.error f)
  | matched {k c v} (hc : cs[k]? = some c) (hp : PassedOver yields cs k) (h : yields k c (.ok v))
      (hv : v ≠ .none) : Chooses (.ok v)
  | missed (hp : PassedOver yields cs cs.length) : Chooses (.ok .none)

end Relation

/-- The result of the clauses from index `i` on, computed from the results of the single ones. -/
def choice (verdict : Nat → Clause → Except Fault Selector) :
    Nat → List Clause → Except Fault Selector
  | _, [] => .ok .none
  | i, c :: cs =>
    match verdict i c with
    | .error f => .error f
    | .ok v => if v.isMatch then .ok v else choice verdict (i + 1) cs

variable {yields : Nat → Clause → Except Fault Selector → Prop}
  {verdict : Nat → Clause → Except Fault Selector} {c : Clause} {cs : List Clause}

theorem passedOver_zero : PassedOver yields cs 0 := fun j hj => absurd hj (Nat.not_lt_zero j)

theorem passedOver_cons {k : Nat} : PassedOver yields (c :: cs) (k + 1) ↔
    yields 0 c (.ok .none) ∧ PassedOver (fun j => yields (j + 1)) cs k := by
  constructor
  · intro h
    refine ⟨h 0 (by omega) c rfl, fun j hj d hd => ?_⟩
    exact h (j + 1) (by omega) d (by simpa using hd)
  · rintro ⟨h₀, h⟩ j hj d hd
    cases j with
    | zero =>
      obtain rfl : c = d := by simpa using hd
      exact h₀
    | succ j => exact h j (by omega) d (by simpa using hd)

private theorem chooses_nil {r : Except Fault Selector} : Chooses yields [] r ↔ r = .ok .none := by
  constructor
  · intro h
    cases h with
    | failed hc => simp at hc
    | matched hc => simp at hc
    | missed => rfl
  · rintro rfl
    exact .missed passedOver_zero

/-- The first clause decides, unless it comes to zero. -/
private theorem chooses_cons {r : Except Fault Selector} : Chooses yields (c :: cs) r ↔
    (∃ f, yields 0 c (.error f) ∧ r = .error f) ∨
    (∃ v, v ≠ .none ∧ yields 0 c (.ok v) ∧ r = .ok v) ∨
    (yields 0 c (.ok .none) ∧ Chooses (fun k => yields (k + 1)) cs r) := by
  constructor
  · intro h
    cases h with
    | @failed k d f hc hp h =>
      cases k with
      | zero =>
        obtain rfl : c = d := by simpa using hc
        exact .inl ⟨f, h, rfl⟩
      | succ k =>
        obtain ⟨h₀, hp⟩ := passedOver_cons.1 hp
        exact .inr (.inr ⟨h₀, .failed (by simpa using hc) hp h⟩)
    | @matched k d v hc hp h hv =>
      cases k with
      | zero =>
        obtain rfl : c = d := by simpa using hc
        exact .inr (.inl ⟨v, hv, h, rfl⟩)
      | succ k =>
        obtain ⟨h₀, hp⟩ := passedOver_cons.1 hp
        exact .inr (.inr ⟨h₀, .matched (by simpa using hc) hp h hv⟩)
    | missed hp =>
      obtain ⟨h₀, hp⟩ := passedOver_cons.1 hp
      exact .inr (.inr ⟨h₀, .missed hp⟩)
  · rintro (⟨f, h, rfl⟩ | ⟨v, hv, h, rfl⟩ | ⟨h₀, h⟩)
    · exact .failed (k := 0) rfl passedOver_zero h
    · exact .matched (k := 0) rfl passedOver_zero h hv
    · cases h with
      | @failed k d f hc hp h =>
        exact .failed (k := k + 1) (by simpa using hc) (passedOver_cons.2 ⟨h₀, hp⟩) h
      | @matched k d v hc hp h hv =>
        exact .matched (k := k + 1) (by simpa using hc) (passedOver_cons.2 ⟨h₀, hp⟩) h hv
      | missed hp => exact .missed (passedOver_cons.2 ⟨h₀, hp⟩)

/-- The index of a clause counts from that of the first. -/
theorem verdict_shift (i : Nat) : (fun (k : Nat) c r => verdict (i + (k + 1)) c = r) =
    fun k c r => verdict (i + 1 + k) c = r := by
  funext k c r
  rw [show i + (k + 1) = i + 1 + k by omega]

/-- The relation and the computation agree, so the clauses have exactly one result. -/
theorem chooses_iff (i : Nat) {r : Except Fault Selector} :
    Chooses (fun k c r => verdict (i + k) c = r) cs r ↔ choice verdict i cs = r := by
  induction cs generalizing i with
  | nil => rw [chooses_nil, choice, eq_comm]
  | cons c cs ih =>
    rw [chooses_cons, choice, verdict_shift, ih (i + 1)]
    simp only [Nat.add_zero]
    cases hv : verdict i c with
    | error f => simp [@eq_comm _ r]
    | ok v =>
      by_cases hm : v = .none
      · subst hm
        simp +contextual [@eq_comm _ Selector.none]
      · simp only [Selector.isMatch_iff.2 hm, if_true, Except.ok.injEq, hm, false_and, or_false,
          reduceCtorEq, exists_false, false_or]
        constructor
        · rintro ⟨w, -, rfl, h⟩
          exact h.symm
        · intro h
          exact ⟨v, hm, rfl, h.symm⟩

/-! ## Selection -/

variable (p : Pad) (env : Environment) (s : Scene)

/-- What the clause at index `i` comes to, by the matcher that it asks. -/
def verdictAt (s : Scene) (held : Holdings) (i : Nat) (c : Clause) : Except Fault Selector :=
  c.verdict (s.judge (held.matcherOr s.matcher i))

/-- What is left behind by the clause at index `i`. -/
def visited (i : Nat) (c : Clause) (q : Progress) : Progress :=
  let types := c.askedTypes (s.judge (q.consultation.held.matcherOr s.matcher i))
  let q' := { q with consultation := types.foldl (s.asking i) q.consultation }
  match verdictAt s q.consultation.held i c with
  | .error _ => q'
  | .ok v => env.noted (.evaluated p.name i c.kind v) q'

/-- What is left behind by the clauses from index `i` on. -/
def surveyed : Nat → List Clause → Progress → Progress
  | _, [], q => q
  | i, c :: cs, q =>
    let q' := p.visited env s i c q
    match verdictAt s q.consultation.held i c with
    | .error _ => q'
    | .ok v => if v.isMatch then q' else surveyed (i + 1) cs q'

@[simp] theorem noted_memory (e : Event) (q : Progress) : (env.noted e q).memory = q.memory := by
  rw [Environment.noted]
  split <;> rfl

@[simp] theorem noted_consultation (e : Event) (q : Progress) :
    (env.noted e q).consultation = q.consultation := by
  rw [Environment.noted]
  split <;> rfl

variable {p env s}

@[simp] theorem visited_memory (i : Nat) (c : Clause) (q : Progress) :
    (p.visited env s i c q).memory = q.memory := by
  rw [visited]
  cases verdictAt s q.consultation.held i c <;> simp

@[simp] theorem matcherOr_visited (i j : Nat) (c : Clause) (q : Progress) :
    (p.visited env s i c q).consultation.held.matcherOr s.matcher j =
      q.consultation.held.matcherOr s.matcher j := by
  rw [visited]
  cases verdictAt s q.consultation.held i c <;> simp

theorem verdictAt_visited (i : Nat) (c : Clause) (q : Progress) :
    verdictAt s (p.visited env s i c q).consultation.held = verdictAt s q.consultation.held := by
  funext j d
  simp [verdictAt]

theorem surveyed_memory (i : Nat) (cs : List Clause) (q : Progress) :
    (p.surveyed env s i cs q).memory = q.memory := by
  induction cs generalizing i q with
  | nil => rfl
  | cons c cs ih =>
    rw [surveyed]
    cases verdictAt s q.consultation.held i c with
    | error f => exact visited_memory i c q
    | ok v => cases hm : v.isMatch <;> simp [hm, ih]

theorem matcherOr_surveyed (i j : Nat) (cs : List Clause) (q : Progress) :
    (p.surveyed env s i cs q).consultation.held.matcherOr s.matcher j =
      q.consultation.held.matcherOr s.matcher j := by
  induction cs generalizing i q with
  | nil => rfl
  | cons c cs ih =>
    rw [surveyed]
    cases verdictAt s q.consultation.held i c with
    | error f => exact matcherOr_visited i j c q
    | ok v => cases hm : v.isMatch <;> simp [hm, ih]

variable (p env s) in
/-- The result of a selection, and what it leaves behind. -/
theorem select_eq (i : Nat) (cs : List Clause) (q : Progress) :
    p.select env s i cs q =
      Action.settle (choice (verdictAt s q.consultation.held) i cs) (p.surveyed env s i cs q) := by
  induction cs generalizing i q with
  | nil => rfl
  | cons c cs ih =>
    rw [select_cons, Scene.evaluate_eq, choice, surveyed, ← verdictAt]
    cases hv : verdictAt s q.consultation.held i c with
    | error f => simp [visited, hv]
    | ok v =>
      cases hm : v.isMatch with
      | true => simp [visited, hv, hm]
      | false =>
        have h := ih (i + 1) (p.visited env s i c q)
        rw [verdictAt_visited] at h
        simpa [visited, hv, hm] using h

end Pad

end Unwinding
