import Unwinding.Proofs.Pad.Deployment

/-!
# Whose matcher a clause asks

The first evaluation of a clause that comes to a type decides whose matcher the clause asks for
good: that of the context of this evaluation. The context counts it, as it counts the matchers that
it hands out to others; a clone starts from what its original holds.
-/
namespace Unwinding

namespace Deployment

/-- In a use, clause `k` of pad `i` is evaluated under a context with matcher `m` and comes to a
type that is not null. -/
def Reaches (s : Deployment) (u : Use) (i k : Nat) (m : MatcherId) : Prop :=
  ∃ j c clause scene, s.contexts[j]? = some c ∧ c.environment.matcher = m ∧
    s.Evaluates u i k j clause scene ∧ clause.Consults scene ((s.holder? i k).getD m)

/-- The first of the uses in which clause `k` of pad `i` comes to a type is under matcher `m`. -/
inductive FirstReached (i k : Nat) (m : MatcherId) : Deployment → List Use → Prop
  | now {s u us} (h : s.Reaches u i k m) : FirstReached i k m s (u :: us)
  | later {s u us} (hn : ∀ m', ¬ s.Reaches u i k m') (h : FirstReached i k m (s.step u) us) :
      FirstReached i k m s (u :: us)

/-- In a use, clause `k` of pad `i` puts the question `q` to matcher `m`. -/
def Asks (s : Deployment) (u : Use) (i k : Nat) (m : MatcherId) (q : Query) : Prop :=
  ∃ p j clause scene, s.pads[i]? = some p ∧ s.Evaluates u i k j clause scene ∧
    (m, q) ∈ (Action.final (clause.evaluate scene k ⟨p.held, 0, []⟩)).asked

/-- How many clauses hold a matcher afterwards that held none before. -/
def gained (s s' : Deployment) : Nat :=
  ∑ i ∈ Finset.range s.pads.length,
    (List.range (s.pads[i]?.elim 0 (·.pad.clauses.length))).countP fun k =>
      (s.holder? i k).isNone && (s'.holder? i k).isSome

/-- The clauses are evaluated under context `j`. -/
def Use.under (j : Nat) (u : Use) : Bool := u.subject?.any (·.2 == j)

/-- How many clauses came to hold a matcher under context `j`. -/
def gainedUnder (j : Nat) : Deployment → List Use → Nat
  | _, [] => 0
  | s, u :: us => (if u.under j then s.gained (s.step u) else 0) + gainedUnder j (s.step u) us

variable {s : Deployment} {u : Use} {us : List Use} {i j k : Nat} {m : MatcherId} {q : Query}
  {clause : Clause} {scene : Scene}

/-! ## One use -/

theorem Evaluates.context (h : s.Evaluates u i k j clause scene) :
    ∃ c, s.contexts[j]? = some c ∧ c.environment.matcher = scene.matcher := by
  cases h with
  | alone _ hc => exact ⟨_, hc, rfl⟩
  | amid _ hc => exact ⟨_, hc, rfl⟩

theorem Evaluates.pad_lt (h : s.Evaluates u i k j clause scene) : i < s.pads.length := by
  cases h with
  | alone hp | amid hp => exact (List.getElem?_eq_some_iff.1 hp).1

theorem Evaluates.clause_lt {p : BuiltPad} (h : s.Evaluates u i k j clause scene)
    (hp : s.pads[i]? = some p) : k < p.pad.clauses.length := by
  cases h with
  | alone hp' _ hk | amid hp' _ hk =>
    obtain rfl := Option.some.inj (hp.symm.trans hp')
    exact (List.getElem?_eq_some_iff.1 hk).1

/-- In one use a clause is evaluated only once. -/
theorem Evaluates.unique {j' : Nat} {clause' : Clause} {scene' : Scene}
    (h : s.Evaluates u i k j clause scene) (h' : s.Evaluates u i k j' clause' scene') :
    j' = j ∧ clause' = clause ∧ scene' = scene := by
  cases h with
  | alone hp hc hk =>
    cases h' with
    | alone hp' hc' hk' =>
      obtain rfl := Option.some.inj (hp.symm.trans hp')
      obtain rfl := Option.some.inj (hc.symm.trans hc')
      obtain rfl := Option.some.inj (hk.symm.trans hk')
      exact ⟨rfl, rfl, rfl⟩
  | amid hp hc hk he hs =>
    cases h' with
    | amid hp' hc' hk' he' hs' =>
      obtain rfl := Option.some.inj (hp.symm.trans hp')
      obtain rfl := Option.some.inj (hc.symm.trans hc')
      obtain rfl := Option.some.inj (hk.symm.trans hk')
      obtain rfl := Except.ok.inj (he.symm.trans he')
      obtain rfl := Except.ok.inj (hs.symm.trans hs')
      exact ⟨rfl, rfl, rfl⟩

/-- A clause without a matcher asks that of the context. -/
theorem reaches_iff (hn : s.holder? i k = none) : s.Reaches u i k m ↔
    ∃ j clause scene, s.Evaluates u i k j clause scene ∧ scene.matcher = m ∧
      clause.Consults scene m := by
  rw [Reaches, hn]
  constructor
  · rintro ⟨j, c, clause, scene, hc, rfl, he, hr⟩
    obtain ⟨c', hc', hm⟩ := he.context
    obtain rfl := Option.some.inj (hc.symm.trans hc')
    exact ⟨j, clause, scene, he, hm.symm, hr⟩
  · rintro ⟨j, clause, scene, he, rfl, hr⟩
    obtain ⟨c, hc, hm⟩ := he.context
    exact ⟨j, c, clause, scene, hc, hm, he, hr⟩

theorem not_reaches (h : ∀ {j clause scene}, ¬ s.Evaluates u i k j clause scene) :
    ¬ s.Reaches u i k m := fun ⟨_, _, _, _, _, _, he, _⟩ => h he

theorem not_asks (h : ∀ {j clause scene}, ¬ s.Evaluates u i k j clause scene) :
    ¬ s.Asks u i k m q := fun ⟨_, _, _, _, _, he, _⟩ => h he

theorem holder?_put {p : BuiltPad} {c : Context} (hi : i < s.pads.length) :
    (s.put i p j c).holder? i k = p.held.find? k := by
  simp [holder?, put, hi]

theorem holder?_put_of_ne {i' : Nat} {p : BuiltPad} {c : Context} (hi : i' ≠ i) :
    (s.put i p j c).holder? i' k = s.holder? i' k := by
  simp [holder?, put, List.getElem?_set_ne hi.symm]

theorem holder?_of_pad {p : BuiltPad} (hp : s.pads[i]? = some p) :
    s.holder? i k = p.held.find? k := by
  simp [holder?, hp]

/-- A use fills the places of those clauses that come to a type in it, and no other place. -/
theorem holder?_step (hi : i < s.pads.length) : (s.step u).holder? i k = some m ↔
    s.holder? i k = some m ∨ s.holder? i k = none ∧ s.Reaches u i k m := by
  have h := s.performs u
  generalize s.step u = s', s.asked u = asked at h
  cases h with
  | @consulted _ i' j' p c c' after scene visited hu hp hc hm hv hafter henv hacq =>
    by_cases hii : i = i'
    · subst hii
      rw [holder?_put hi, holder?_of_pad hp, hafter, Scene.held_consult]
      refine or_congr_right (and_congr_right fun hn => ?_)
      rw [reaches_iff ((holder?_of_pad hp).trans hn)]
      simp only [hv, true_and]
      constructor
      · rintro ⟨hm, clause, hmem, hr⟩
        exact ⟨j', clause, scene, ⟨rfl, rfl, hmem⟩, hm, hr⟩
      · rintro ⟨_, clause, _, ⟨rfl, rfl, hmem⟩, hm, hr⟩
        exact ⟨hm, clause, hmem, hr⟩
    · rw [holder?_put_of_ne hii]
      have hno : ¬ s.Reaches u i k m := not_reaches fun he => hii (hv.1 he).1.1
      simp [hno]
  | missed hu hv => simp [not_reaches hv]
  | @cloned i' =>
    have hno : ¬ s.Reaches (.clone i') i k m := not_reaches fun he => by cases he
    simp [hno, holder?, List.getElem?_append_left hi]
  | @acquired j =>
    have hno : ¬ s.Reaches (.acquire j) i k m := not_reaches fun he => by cases he
    simp [hno, holder?]

theorem lt_of_holder (h : s.holder? i k = some m) : i < s.pads.length := by
  obtain ⟨p, hp, -⟩ := Option.bind_eq_some_iff.1 h
  exact (List.getElem?_eq_some_iff.1 hp).1

theorem holder?_step_of_some (h : s.holder? i k = some m) : (s.step u).holder? i k = some m :=
  (holder?_step (lt_of_holder h)).2 (.inl h)

theorem pads_length_le_step (s : Deployment) (u : Use) :
    s.pads.length ≤ (s.step u).pads.length := by
  have h := s.performs u
  generalize s.step u = s', s.asked u = asked at h
  cases h with
  | consulted => simp [put]
  | missed => exact Nat.le_refl _
  | cloned => simp
  | acquired => exact Nat.le_refl _

/-- The questions of a use are those of the clauses that it evaluates. -/
theorem mem_asked_iff : (m, q) ∈ s.asked u ↔ ∃ i k, s.Asks u i k m q := by
  have h := s.performs u
  generalize s.step u = s', s.asked u = asked at h
  cases h with
  | @consulted _ i j p c c' after scene visited hu hp hc hm hv hafter henv hacq =>
    rw [hafter, Scene.asked_consult, List.nil_append, List.mem_flatMap]
    constructor
    · rintro ⟨⟨k, clause⟩, hmem, hq⟩
      exact ⟨i, k, p, j, clause, scene, hp, hv.2 ⟨⟨rfl, rfl⟩, rfl, hmem⟩, hq⟩
    · rintro ⟨i', k, p', j', clause, scene', hp', he, hq⟩
      obtain ⟨⟨rfl, rfl⟩, rfl, hmem⟩ := hv.1 he
      obtain rfl := Option.some.inj (hp.symm.trans hp')
      exact ⟨(k, clause), hmem, hq⟩
  | missed hu hv =>
    have hno (i k) : ¬ s.Asks u i k m q := not_asks hv
    simp [hno]
  | @cloned i' =>
    have hno (i k) : ¬ s.Asks (.clone i') i k m q := not_asks fun he => by cases he
    simp [hno]
  | @acquired j =>
    have hno (i k) : ¬ s.Asks (.acquire j) i k m q := not_asks fun he => by cases he
    simp [hno]

/-- A clause asks the matcher that it holds afterwards. -/
theorem Asks.holder (h : s.Asks u i k m q) : (s.step u).holder? i k = some m := by
  obtain ⟨p, j, clause, scene, hp, he, hq⟩ := h
  have hheld : s.holder? i k = p.held.find? k := holder?_of_pad hp
  rw [Scene.asked_evaluate, List.nil_append] at hq
  obtain ⟨type, ht, hmq⟩ := List.mem_map.1 hq
  obtain ⟨rfl, -⟩ := Prod.mk.inj hmq
  cases hn : p.held.find? k with
  | some m =>
    rw [Holdings.matcherOr_of_some hn]
    exact holder?_step_of_some (hheld.trans hn)
  | none =>
    rw [Holdings.matcherOr_of_none hn] at ht ⊢
    have hr : clause.Consults scene scene.matcher :=
      Clause.askedTypes_ne_nil_iff.1 (List.ne_nil_of_mem ht)
    rw [holder?_step (List.getElem?_eq_some_iff.1 hp).1]
    exact .inr ⟨hheld.trans hn, (reaches_iff (hheld.trans hn)).2 ⟨j, clause, scene, he, rfl, hr⟩⟩

/-- Whether an evaluation comes to a type is decided by the first operand alone: the matcher may
fail on the type, and what the other operands are does not matter. -/
theorem holder?_step_of_evaluates (h : s.Evaluates u i k j clause scene)
    (hn : s.holder? i k = none) :
    (s.step u).holder? i k = some m ↔ scene.matcher = m ∧
      ∃ o os type, clause.types = o :: os ∧ scene.resolve o = .ok type ∧ type ≠ .null := by
  rw [holder?_step h.pad_lt, reaches_iff hn, hn]
  constructor
  · rintro (hm | ⟨-, j', clause', scene', h', rfl, hr⟩)
    · cases hm
    · obtain ⟨rfl, rfl, rfl⟩ := h.unique h'
      exact ⟨rfl, Clause.consults_iff.1 hr⟩
  · rintro ⟨rfl, hr⟩
    exact .inr ⟨rfl, j, clause, scene, h, rfl, Clause.consults_iff.2 hr⟩

theorem gained_self (s : Deployment) : s.gained s = 0 := by
  refine Finset.sum_eq_zero fun i _ => List.countP_eq_zero.2 fun k _ => ?_
  cases s.holder? i k <;> simp

/-- Only the pad that is used gains matchers. -/
theorem gained_put {p : BuiltPad} {c : Context} (held : Holdings) (hp : s.pads[i]? = some p) :
    s.gained (s.put i { p with held := held } j c) = p.held.gained held p.pad.clauses.length := by
  have hi : i < s.pads.length := (List.getElem?_eq_some_iff.1 hp).1
  have hother : ∀ i' ∈ Finset.range s.pads.length, i' ≠ i →
      (List.range (s.pads[i']?.elim 0 (·.pad.clauses.length))).countP (fun k =>
        (s.holder? i' k).isNone &&
          ((s.put i { p with held := held } j c).holder? i' k).isSome) = 0 := by
    intro i' _ hii
    refine List.countP_eq_zero.2 fun k _ => ?_
    rw [holder?_put_of_ne hii]
    cases s.holder? i' k <;> simp
  rw [gained, Finset.sum_eq_single i hother fun h => absurd (Finset.mem_range.2 hi) h]
  simp only [hp, Option.elim_some, holder?_put hi, holder?_of_pad hp]
  rfl

theorem Use.acquires_of_subject {x : Nat × Nat} (h : u.subject? = some x) :
    u.acquires j = false := by
  cases u with
  | dispatch | evaluate => rfl
  | clone | acquire => cases h

theorem context_step {c : Context} (hc : s.contexts[j]? = some c) :
    ∃ c', (s.step u).contexts[j]? = some c' ∧ c'.environment = c.environment ∧
      c'.acquisitions = c.acquisitions + (if u.under j then s.gained (s.step u) else 0) +
        if u.acquires j then 1 else 0 := by
  have h := s.performs u
  generalize s.step u = s', s.asked u = asked at h ⊢
  cases h with
  | @consulted _ i j' p c₀ c' after scene visited hu hp hc₀ hm hv hafter henv hacq =>
    have hacquires : u.acquires j = false := Use.acquires_of_subject hu
    by_cases hj : j' = j
    · subst hj
      obtain rfl := Option.some.inj (hc.symm.trans hc₀)
      have hlt : j' < s.contexts.length := (List.getElem?_eq_some_iff.1 hc).1
      -- no clause outside the pad is looked at, so counting its places misses none
      have hn : ∀ v ∈ visited, v.1 < p.pad.clauses.length := fun v hmem =>
        (hv.2 ⟨⟨rfl, rfl⟩, rfl, hmem⟩).clause_lt hp
      refine ⟨c', by simp [put, hlt], henv, ?_⟩
      have hunder : u.under j' = true := by simp [Use.under, hu]
      rw [hunder, hacquires, gained_put _ hp, hacq, hafter, Scene.acquisitions_consult hn]
      rfl
    · have hunder : u.under j = false := by simp [Use.under, hu, hj]
      refine ⟨c, by simp [put, List.getElem?_set_ne hj, hc], rfl, ?_⟩
      simp [hunder, hacquires]
  | @missed _ i j' hu hv =>
    have hacquires : u.acquires j = false := Use.acquires_of_subject hu
    exact ⟨c, hc, rfl, by simp [hacquires, gained_self]⟩
  | cloned => exact ⟨c, hc, rfl, rfl⟩
  | @acquired j' =>
    by_cases hj : j' = j
    · subst hj
      exact ⟨{ c with acquisitions := c.acquisitions + 1 }, by simp [hc], rfl,
        by simp [Use.under, Use.subject?, Use.acquires]⟩
    · exact ⟨c, by rw [List.getElem?_modify_ne _ _ hj, hc], rfl,
        by simp [Use.under, Use.subject?, Use.acquires, hj]⟩

/-! ## Several uses -/

theorem holder?_run_of_some (h : s.holder? i k = some m) : (s.run us).holder? i k = some m := by
  induction us generalizing s with
  | nil => exact h
  | cons u us ih => exact ih (holder?_step_of_some h)

/-- A clause comes to hold a matcher when it first comes to a type. -/
theorem holder?_run_iff (hi : i < s.pads.length) (hn : s.holder? i k = none) :
    (s.run us).holder? i k = some m ↔ FirstReached i k m s us := by
  induction us generalizing s with
  | nil =>
    constructor
    · intro h
      rw [run, List.foldl_nil, hn] at h
      cases h
    · exact nofun
  | cons u us ih =>
    have hstep (m') : (s.step u).holder? i k = some m' ↔ s.Reaches u i k m' := by
      rw [holder?_step hi]
      simp [hn]
    have hrun : s.run (u :: us) = (s.step u).run us := rfl
    rw [hrun]
    -- either this use is the first one and the others keep what it left, or they decide
    cases h : (s.step u).holder? i k with
    | some m' =>
      have hr : s.Reaches u i k m' := (hstep m').1 h
      rw [holder?_run_of_some h]
      constructor
      · rintro ⟨⟩
        exact .now hr
      · intro hf
        cases hf with
        | now hr' => exact h.symm.trans ((hstep m).2 hr')
        | later hno => exact absurd hr (hno m')
    | none =>
      have hno (m') : ¬ s.Reaches u i k m' := fun hr => by simp [(hstep m').2 hr] at h
      rw [ih (hi.trans_le (pads_length_le_step s u)) h]
      constructor
      · exact .later hno
      · intro hf
        cases hf with
        | now hr => exact absurd hr (hno m)
        | later _ hf => exact hf

theorem context_run {c : Context} (hc : s.contexts[j]? = some c) :
    ∃ c', (s.run us).contexts[j]? = some c' ∧ c'.environment = c.environment ∧
      c'.acquisitions = c.acquisitions + gainedUnder j s us + us.countP (·.acquires j) := by
  induction us generalizing s c with
  | nil => exact ⟨c, hc, rfl, rfl⟩
  | cons u us ih =>
    obtain ⟨c₁, hc₁, henv₁, hacq₁⟩ := @context_step s u j c hc
    obtain ⟨c₂, hc₂, henv₂, hacq₂⟩ := ih hc₁
    refine ⟨c₂, hc₂, henv₂.trans henv₁, ?_⟩
    rw [hacq₂, hacq₁, gainedUnder, List.countP_cons]
    omega

theorem step_clone {p : BuiltPad} (hp : s.pads[i]? = some p) :
    s.step (.clone i) = { s with pads := s.pads ++ [p] } := by
  simp [step, perform, hp]

/-- A clause comes to hold the matcher of the context under which it first comes to a type, even if
the matcher then fails on this type. It holds the matcher for good and asks no other. A context has
handed out its matcher once for each clause that came to hold one under it, and once for each direct
request. A clone starts with what its original holds and then goes its own way. -/
theorem matchers_owned_from_first_reach (contexts : List Context) (pads : List Pad)
    (before : List Use) :
    let s := (new contexts pads).run before
    (∀ i k, (new contexts pads).holder? i k = none) ∧
    (∀ i k m later, i < s.pads.length → s.holder? i k = none →
      ((s.run later).holder? i k = some m ↔ FirstReached i k m s later)) ∧
    (∀ i k m later, s.holder? i k = some m → (s.run later).holder? i k = some m ∧
      ∀ u m' q, (s.run later).Asks u i k m' q → m' = m) ∧
    (∀ u m q, ((m, q) ∈ s.asked u ↔ ∃ i k, s.Asks u i k m q) ∧
      ∀ i k, s.Asks u i k m q → (s.step u).holder? i k = some m) ∧
    (∀ u i k j clause scene, s.Evaluates u i k j clause scene → s.holder? i k = none → ∀ m,
      ((s.step u).holder? i k = some m ↔ scene.matcher = m ∧
        ∃ o os type, clause.types = o :: os ∧ scene.resolve o = .ok type ∧ type ≠ .null)) ∧
    (∀ j c, contexts[j]? = some c → ∃ c', s.contexts[j]? = some c' ∧
      c'.environment = c.environment ∧
      c'.acquisitions = c.acquisitions + gainedUnder j (new contexts pads) before +
        before.countP (·.acquires j)) ∧
    ∀ i p, s.pads[i]? = some p →
      let s' := s.step (.clone i)
      s'.contexts = s.contexts ∧ s'.pads = s.pads ++ [p] ∧ ∀ k,
        s'.holder? s.pads.length k = s.holder? i k ∧
        (s.holder? i k = none → ∀ m later, (s'.run later).holder? s.pads.length k = some m ↔
          FirstReached s.pads.length k m s' later) := by
  intro s
  refine ⟨?_, fun i k m later => holder?_run_iff, ?_,
    fun u m q => ⟨mem_asked_iff, fun i k => Asks.holder⟩,
    fun u i k j clause scene h hn m => holder?_step_of_evaluates h hn, ?_, ?_⟩
  · intro i k
    simp only [holder?, new, List.getElem?_map]
    cases pads[i]? <;> rfl
  · intro i k m later h
    refine ⟨holder?_run_of_some h, fun u m' q ha => ?_⟩
    exact Option.some.inj (ha.holder.symm.trans (holder?_step_of_some (holder?_run_of_some h)))
  · intro j c hc
    exact context_run hc
  · intro i p hp s'
    have hs' : s' = { s with pads := s.pads ++ [p] } := step_clone hp
    have hholder (k : Nat) : s'.holder? s.pads.length k = s.holder? i k := by
      rw [hs', holder?_of_pad hp]
      simp [holder?]
    refine ⟨by rw [hs'], by rw [hs'], fun k => ⟨hholder k, fun hn m later => ?_⟩⟩
    exact holder?_run_iff (by simp [hs']) ((hholder k).trans hn)

/-- One clone is made before the original first comes to a type and one after it. The matchers have
no answer. -/
theorem clones_around_first_reach :
    let context (m : Nat) : Context := ⟨⟨{}, ⟨0⟩, ⟨m⟩⟩, none, 0⟩
    let pad : Pad := ⟨"pad", 0, 1, .null, [.catchAll, .catching (.symbol "T")], false⟩
    let world : Collaborators := ⟨fun _ _ o => .ok (if o = .null then .null else ⟨0x20⟩),
      fun _ q => .error (.unknownUnwindHeader q.header)⟩
    let evaluate (i j k : Nat) : Use := .evaluate world i j k ⟨[]⟩ ⟨0x10⟩ ⟨0x9000⟩
    let s := (new [context 1, context 2] [pad]).run [.clone 0]
    let later :=
      [evaluate 0 0 0, evaluate 0 1 1, .clone 0, evaluate 2 0 1, evaluate 1 0 1, .acquire 1]
    FirstReached 0 1 ⟨2⟩ s later ∧ FirstReached 1 1 ⟨1⟩ s later ∧
      (s.run later).holder? 0 0 = none ∧ (s.run later).holder? 2 1 = some ⟨2⟩ ∧
      (s.run later).contexts.map (·.acquisitions) = [1, 2] := by
  intro context pad world evaluate s later
  obtain ⟨-, hfirst, -⟩ := matchers_owned_from_first_reach [context 1, context 2] [pad] [.clone 0]
  refine ⟨?_, ?_, by cbv, by cbv, by cbv⟩
  · exact (hfirst 0 1 ⟨2⟩ later (by decide) (by cbv)).1 (by cbv)
  · exact (hfirst 1 1 ⟨1⟩ later (by decide) (by cbv)).1 (by cbv)

end Deployment

end Unwinding
