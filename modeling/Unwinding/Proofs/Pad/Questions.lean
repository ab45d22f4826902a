import Mathlib
import Unwinding.Proofs.Clause.Decision
import Unwinding.Proofs.Pad.Deployment

/-!
# The questions of a dispatch

The entries of a pad stand in the order of its clauses, and in each clause in their own. A dispatch
that has read its exception meets those entries before which nothing has settled the matter: clauses
that come to zero and, in the same clause, rejected entries. For each entry that it meets and that
stands for a type, it asks one question, in this order, and besides these it asks none.
-/
namespace Unwinding

/-- The question that is put to matcher `m` for an operand, if it stands for a type. -/
def Scene.question? (s : Scene) (m : MatcherId) (o : Operand) : Option (MatcherId × Query) :=
  match s.resolve o with
  | .error _ => none
  | .ok type => if type = .null then none else some (m, s.query type)

namespace Pad

/-- An operand of a pad at its place: the index of its clause and its index there. -/
structure Entry where
  clause : Nat
  place : Nat
  operand : Operand

def entries (p : Pad) : List Entry :=
  p.clauses.zipIdx.flatMap fun c => c.1.types.zipIdx.map fun o => ⟨c.2, o.2, o.1⟩

section Scan
variable (p : Pad) (s : Scene) (held : Holdings)

/-- All clauses before that of the entry come to zero, and in its own all entries before it are
rejected. -/
def Entry.Met (x : Entry) : Prop :=
  PassedOver (Asked held s) p.clauses x.clause ∧
    ∃ c, p.clauses[x.clause]? = some c ∧
      s.ComesTo (held.matcherOr s.matcher x.clause) c.types x.place x.operand

open Classical in
/-- The entries that are met, in order. -/
noncomputable def met : List Entry := p.entries.filter fun x => x.Met p s held

def Entry.question? (x : Entry) : Option (MatcherId × Query) :=
  s.question? (held.matcherOr s.matcher x.clause) x.operand

end Scan

end Pad

/-! ## One clause -/

namespace Scene
variable {s : Scene} {m : MatcherId} {o : Operand}

theorem question?_eq_some_iff {m' : MatcherId} {q : Query} : s.question? m o = some (m', q) ↔
    ∃ type, s.resolve o = .ok type ∧ type ≠ .null ∧ m' = m ∧ q = s.query type := by
  rw [question?]
  cases s.resolve o with
  | error f => simp
  | ok type => by_cases hn : type = .null <;> simp [hn, @eq_comm _ m, @eq_comm _ (s.query type)]

theorem toList_question? (s : Scene) (m : MatcherId) (o : Operand) :
    (s.question? m o).toList = (s.judge m o).asked.map fun type => (m, s.query type) := by
  rw [question?, judge_eq]
  cases s.resolve o with
  | error f => rfl
  | ok type =>
    by_cases hn : type = .null
    · simp [hn, Judgement.asked]
    · simp only [hn, if_false]
      cases s.world.canCatch m (s.query type) with
      | error f => rfl
      | ok b => cases b <;> rfl

open Classical in
theorem scanned_judge (s : Scene) (m : MatcherId) (os : List Operand) :
    Clause.scanned (s.judge m) os =
      (os.zipIdx.filter fun x => s.PassesTo m os x.2).flatMap
        fun x => (s.judge m x.1).asked := by
  induction os with
  | nil => rfl
  | cons o os ih =>
    have hstop : (s.judge m o).filterStop.isSome = true ↔ ¬ s.Rejects m o := by
      rw [← spares_judge_iff, Clause.Spares]
      cases s.judge m o <;> simp [Judgement.filterStop]
    have hzero : s.PassesTo m (o :: os) 0 := by simp [PassesTo]
    have hsucc (k : Nat) : s.PassesTo m (o :: os) (k + 1) ↔ s.Rejects m o ∧ s.PassesTo m os k := by
      simp [PassesTo]
    rw [Clause.scanned, List.zipIdx_cons, List.zipIdx_succ]
    by_cases hr : s.Rejects m o
    · simp [hstop, hr, ih, hzero, hsucc, List.filter_map, Function.comp_def, List.flatMap_map]
    · simp [hstop, hr, hzero, hsucc, List.filter_map, Function.comp_def]

open Classical in
/-- The questions of an evaluation, one for each type that it comes to. -/
theorem askedTypes_judge (s : Scene) (m : MatcherId) (c : Clause) :
    (c.askedTypes (s.judge m)).map (fun type => (m, s.query type)) =
      (c.types.zipIdx.filter fun x => s.PassesTo m c.types x.2).filterMap
        fun x => s.question? m x.1 := by
  cases c with
  | catching o =>
    have hzero : s.PassesTo m [o] 0 := by simp [PassesTo]
    rw [Clause.askedTypes, ← toList_question?, List.filterMap_eq_flatMap_toList]
    simp [Clause.types, hzero]
  | filtering os =>
    rw [Clause.askedTypes, scanned_judge, List.map_flatMap, List.filterMap_eq_flatMap_toList]
    simp only [toList_question?]
    rfl

end Scene

/-! ## All clauses -/

namespace Pad

/-- In a list without repetitions, a sublist is known by its members. -/
private theorem eq_filter_of_sublist {α : Type} {l l' : List α} {P : α → Prop} [DecidablePred P]
    (h : l.Sublist l') (hn : l'.Nodup) (hmem : ∀ x ∈ l', x ∈ l ↔ P x) : l = l'.filter P := by
  have hperm : l.Perm (l'.filter P) := by
    refine (List.perm_ext_iff_of_nodup (hn.sublist h) (hn.filter _)).2 fun x => ?_
    rw [List.mem_filter, decide_eq_true_iff]
    constructor
    · exact fun hx => ⟨h.subset hx, (hmem x (h.subset hx)).1 hx⟩
    · exact fun hx => (hmem x hx.1).2 hx.2
  have hall : l.filter P = l :=
    List.filter_eq_self.2 fun x hx => decide_eq_true ((hmem x (h.subset hx)).1 hx)
  have hsub : l.Sublist (l'.filter P) := by
    rw [← hall]
    exact h.filter _
  exact hsub.eq_of_length hperm.length_eq

private theorem scan_sublist (verdict : Nat → Clause → Except Fault Selector) (i : Nat)
    (cs : List Clause) : (scan verdict i cs).Sublist ((cs.zipIdx i).map Prod.swap) := by
  induction cs generalizing i with
  | nil => exact .refl _
  | cons c cs ih =>
    rw [scan, List.zipIdx_cons]
    apply List.Sublist.cons_cons
    cases verdict i c with
    | error f => exact List.nil_sublist _
    | ok v =>
      dsimp only
      split
      · exact List.nil_sublist _
      · exact ih (i + 1)

open Classical in
/-- The clauses that are looked at are those before which all come to zero, in their order. -/
theorem scan_eq_filter (verdict : Nat → Clause → Except Fault Selector) (cs : List Clause) :
    scan verdict 0 cs =
      (cs.zipIdx.map Prod.swap).filter fun x => PassedOver (fun k c r => verdict k c = r) cs x.1 := by
  refine eq_filter_of_sublist (scan_sublist verdict 0 cs) ?_ ?_
  · apply List.Nodup.of_map Prod.fst
    rw [List.map_map]
    exact List.nodup_zipIdx_map_snd cs
  · rintro ⟨k, c⟩ hx
    obtain ⟨⟨c', k'⟩, hk, heq⟩ := List.mem_map.1 hx
    obtain ⟨rfl, rfl⟩ := Prod.mk.inj heq
    rw [mem_scan_iff]
    simp only [Nat.zero_add]
    constructor
    · rintro ⟨k, rfl, -, hp⟩
      exact hp
    · exact fun hp => ⟨k', rfl, List.mk_mem_zipIdx_iff_getElem?.1 hk, hp⟩

private theorem flatMap_filter {α β : Type} (P : α → Bool) (f : α → List β) (l : List α) :
    (l.filter P).flatMap f = l.flatMap fun x => if P x then f x else [] := by
  induction l with
  | nil => rfl
  | cons x l ih => cases h : P x <;> simp [h, ih]

variable {p : Pad} {s : Scene} {held : Holdings}

theorem mem_met_iff {x : Entry} : x ∈ p.met s held ↔ x.Met p s held := by
  classical
  rw [met, List.mem_filter, decide_eq_true_iff, and_iff_right_iff_imp]
  rintro ⟨-, c, hc, ho, -⟩
  exact List.mem_flatMap.2 ⟨(c, x.clause), List.mk_mem_zipIdx_iff_getElem?.2 hc,
    List.mem_map.2 ⟨(x.operand, x.place), List.mk_mem_zipIdx_iff_getElem?.2 ho, rfl⟩⟩

open Classical in
private theorem met_filterMap (p : Pad) (s : Scene) (held : Holdings) :
    (p.met s held).filterMap (·.question? s held) =
      ((p.clauses.zipIdx.map Prod.swap).filter fun x =>
        PassedOver (Asked held s) p.clauses x.1).flatMap fun x =>
          (x.2.askedTypes (s.judge (held.matcherOr s.matcher x.1))).map fun type =>
            (held.matcherOr s.matcher x.1, s.query type) := by
  rw [met, entries, List.filter_flatMap, List.filterMap_flatMap, List.filter_map, List.flatMap_map,
    flatMap_filter]
  refine List.flatMap_congr fun ⟨c, k⟩ hk => ?_
  have hc := List.mk_mem_zipIdx_iff_getElem?.1 hk
  dsimp only [Function.comp_apply, Prod.swap]
  by_cases hp : PassedOver (Asked held s) p.clauses k
  · have hmet : ∀ o ∈ c.types.zipIdx, Entry.Met p s held ⟨k, o.2, o.1⟩ ↔
        s.PassesTo (held.matcherOr s.matcher k) c.types o.2 := by
      intro o ho
      simp [Entry.Met, Scene.ComesTo, hp, hc, List.mem_zipIdx_iff_getElem?.1 ho]
    have hfilter : (c.types.zipIdx.map fun o => Entry.mk k o.2 o.1).filter (·.Met p s held) =
        (c.types.zipIdx.filter fun o => s.PassesTo (held.matcherOr s.matcher k) c.types o.2).map
          fun o => Entry.mk k o.2 o.1 := by
      rw [List.filter_map]
      exact congrArg _ (List.filter_congr fun o ho => decide_eq_decide.2 (hmet o ho))
    rw [if_pos (decide_eq_true hp), s.askedTypes_judge, hfilter, List.filterMap_map]
    rfl
  · have hfilter : (c.types.zipIdx.map fun o => Entry.mk k o.2 o.1).filter (·.Met p s held) = [] := by
      refine List.filter_eq_nil_iff.2 fun x hx hmet => ?_
      obtain ⟨o, -, rfl⟩ := List.mem_map.1 hx
      exact hp (of_decide_eq_true hmet).1
    rw [hfilter, if_neg fun h => hp (of_decide_eq_true h)]
    rfl

end Pad

/-! ## Dispatch -/

namespace Context
variable {c : Context} {world : Collaborators} {p : Pad} {held : Holdings} {frame : Frame}
  {m : Memory} {d : Scratch} {e : ThrownException} {stack : Address}

theorem asked_dispatch (he : frame.exception p.exceptionSlot = .ok e)
    (hs : frame.stack p.stackSlot = .ok stack) :
    let s := c.environment.scene world frame stack e.header
    (c.dispatch world p held frame m d).asked =
      (p.met s held).filterMap (·.question? s held) := by
  intro s
  have hasked := (@dispatch_consultation c world p held frame m d e stack he hs).2.2
  rw [hasked, Scene.asked_consult, visited, Pad.scan_eq_filter, Pad.met_filterMap, Pad.asked_eq]
  simp only [Scene.asked_evaluate, List.nil_append]
  rfl

theorem count_asked_dispatch (he : frame.exception p.exceptionSlot = .ok e)
    (hs : frame.stack p.stackSlot = .ok stack) {type : Address} (hn : type ≠ .null) :
    let s := c.environment.scene world frame stack e.header
    ((c.dispatch world p held frame m d).asked.map (·.2.type)).count type =
      (p.met s held).countP fun x => s.resolve x.operand = .ok type := by
  intro s
  rw [asked_dispatch he hs, List.map_filterMap, List.count_filterMap]
  refine List.countP_congr fun x _ => ?_
  rw [Pad.Entry.question?, Scene.question?]
  cases s.resolve x.operand with
  | error f => simp
  | ok type' =>
    by_cases hn' : type' = .null
    · simp [hn', hn.symm]
    · simp [hn', Scene.query]

/-- A dispatch that has read its exception asks one question for each entry that it meets and that
stands for a type, in the order of the entries and as often as a type is met. Nothing else asks:
neither a dispatch that cannot read its frame nor what comes after the clauses. -/
theorem asked_once_for_each_met_entry (c : Context) (world : Collaborators) (p : Pad)
    (held : Holdings) (frame : Frame) (m : Memory) (d : Scratch) :
    let r := c.dispatch world p held frame m d
    (∀ e stack, frame.exception p.exceptionSlot = .ok e → frame.stack p.stackSlot = .ok stack →
      let s := c.environment.scene world frame stack e.header
      r.asked = (p.met s held).filterMap (·.question? s held) ∧
      (∀ a ∈ r.asked, a.2.stack = stack ∧ a.2.header = e.header ∧ a.2.type ≠ .null) ∧
      ∀ type, type ≠ .null → (r.asked.map (·.2.type)).count type =
        (p.met s held).countP fun x => s.resolve x.operand = .ok type) ∧
    ((∀ e stack, frame.exception p.exceptionSlot = .ok e →
      frame.stack p.stackSlot ≠ .ok stack) → r.asked = []) ∧
    ∀ destination m' d',
      (c.dispatch world { p with destination := destination } held frame m' d').asked =
        r.asked := by
  intro r
  refine ⟨fun e stack he hs => ?_, fun hun => (dispatch_unread hun).2.2,
    fun destination m' d' => ?_⟩
  · have hasked := @asked_dispatch c world p held frame m d e stack he hs
    refine ⟨hasked, fun a ha => ?_, fun type => count_asked_dispatch he hs⟩
    rw [hasked] at ha
    obtain ⟨x, -, hx⟩ := List.mem_filterMap.1 ha
    obtain ⟨type, -, hn, -, hq⟩ := Scene.question?_eq_some_iff.1 hx
    rw [hq]
    exact ⟨rfl, rfl, hn⟩
  · obtain ⟨e, stack, he, hs⟩ | hun := p.reads_or frame
    · rw [asked_dispatch he hs]
      exact asked_dispatch (p := { p with destination := destination }) he hs
    · rw [(dispatch_unread hun).2.2]
      exact (dispatch_unread (p := { p with destination := destination }) hun).2.2

/-- One type stands in several clauses, twice in one of them. A null entry and an accepted one each
end their filter, and the clause that matches ends the scan. -/
theorem asked_amid_repeated_types :
    let c : Context := ⟨⟨{}, ⟨0⟩, ⟨7⟩⟩, none, 0⟩
    let world : Collaborators := ⟨fun _ frame o => SymbolTable.empty.resolve frame o,
      fun _ q => .ok (q.type == ⟨0x20⟩)⟩
    let a : Operand := .address ⟨0x10⟩
    let b : Operand := .address ⟨0x20⟩
    let p : Pad := ⟨"pad", 0, 1, .symbol "T",
      [.catching a, .filtering [a, .null, .symbol "T"], .filtering [a, a, b, a], .catching b,
        .catching a], false⟩
    let e : ThrownException := ⟨0, ⟨0x9000⟩⟩
    let frame : Frame := ⟨[some (.exception e), some (.stack ⟨0x70⟩)]⟩
    let s := c.environment.scene world frame ⟨0x70⟩ e.header
    let r := c.dispatch world p {} frame (.new (.forWidth .bits64)) {}
    r.asked.map (·.2) = ([⟨0x10⟩, ⟨0x10⟩, ⟨0x10⟩, ⟨0x10⟩, ⟨0x20⟩, ⟨0x20⟩] : List Address).map
      (fun type => ⟨⟨0x70⟩, ⟨0x9000⟩, type⟩) ∧
    (p.met s {}).filterMap (·.question? s {}) = r.asked ∧
    (p.met s {}).countP (fun x => s.resolve x.operand = .ok ⟨0x10⟩) = 4 ∧
    (c.dispatch world p {} ⟨[none]⟩ (.new (.forWidth .bits64)) {}).asked = [] := by
  intro c world a b p e frame s r
  have hasked : r.asked.map (·.2) =
      ([⟨0x10⟩, ⟨0x10⟩, ⟨0x10⟩, ⟨0x10⟩, ⟨0x20⟩, ⟨0x20⟩] : List Address).map
        (fun type => ⟨⟨0x70⟩, ⟨0x9000⟩, type⟩) := by cbv
  obtain ⟨hread, -, -⟩ :=
    asked_once_for_each_met_entry c world p {} frame (.new (.forWidth .bits64)) {}
  obtain ⟨hmet, -, hcount⟩ := hread e ⟨0x70⟩ rfl rfl
  obtain ⟨-, hunread, -⟩ :=
    asked_once_for_each_met_entry c world p {} ⟨[none]⟩ (.new (.forWidth .bits64)) {}
  refine ⟨hasked, hmet.symm, ?_, hunread fun e stack he => by cases he⟩
  have htypes : r.asked.map (·.2.type) = (r.asked.map (·.2)).map (·.type) := by
    rw [List.map_map]
    rfl
  rw [← hcount ⟨0x10⟩ (by decide), htypes, hasked]
  decide

end Context

end Unwinding
