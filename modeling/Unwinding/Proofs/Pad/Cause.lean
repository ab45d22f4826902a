import Mathlib
import Unwinding.Proofs.Pad.Questions
import Unwinding.Proofs.Record.Encoding
import Unwinding.TypeGraph

/-!
# The cause of a fault

With symbol tables and type graphs as collaborators, a dispatch can fail in few ways: a slot that it
reads refuses, a name that it resolves is not defined, it asks about an exception that is not
registered, or there is no place for its record. `Pad.Cause` says when each of them is the case,
without an order of the steps. The fault of a dispatch is the one that has a cause, so it tells the
step that failed and what it failed on, and there is no other fault.
-/
namespace Unwinding

/-! ## Reading a slot -/

namespace Frame

section Relation
variable (frame : Frame) (slot : Nat) (wanted : String)

/-- What a slot answers to a read that wants a value of another kind than it holds. -/
inductive Refuses : Fault → Prop
  | outOfBounds (h : frame.slots[slot]? = none) : Refuses (.slotOutOfBounds slot frame.count)
  /-- That no exception is there is a fault of its own. -/
  | missing (h : frame.slots[slot]? = some none) (hw : wanted = "exception") :
      Refuses (.missingException slot)
  | empty (h : frame.slots[slot]? = some none) (hw : wanted ≠ "exception") :
      Refuses (.slotTypeMismatch slot wanted "empty")
  | otherKind {v} (h : frame.slots[slot]? = some (some v)) (hv : v.kind ≠ wanted) :
      Refuses (.slotTypeMismatch slot wanted v.kind)

end Relation

variable {frame : Frame} {slot : Nat} {wanted : String} {f : Fault}

theorem refuses_iff : frame.Refuses slot wanted f ↔
    match frame.slots[slot]? with
    | none => f = .slotOutOfBounds slot frame.count
    | some none => f =
      if wanted = "exception" then .missingException slot
      else .slotTypeMismatch slot wanted "empty"
    | some (some v) => v.kind ≠ wanted ∧ f = .slotTypeMismatch slot wanted v.kind := by
  constructor
  · intro h
    cases h with
    | outOfBounds h => simp [h]
    | missing h hw => simp [h, hw]
    | empty h hw => simp [h, hw]
    | otherKind h hv => simp [h, hv]
  · intro h
    split at h
    · rename_i hs
      subst h
      exact .outOfBounds hs
    · rename_i hs
      subst h
      split
      · rename_i hw
        exact .missing hs hw
      · rename_i hw
        exact .empty hs hw
    · rename_i v hs
      obtain ⟨hv, rfl⟩ := h
      exact .otherKind hs hv

private theorem error_eq_error_iff {α : Type} {f g : Fault} :
    (Except.error f : Except Fault α) = .error g ↔ g = f := by
  rw [Except.error.injEq, eq_comm]

theorem exception_error_iff :
    frame.exception slot = .error f ↔ frame.Refuses slot "exception" f := by
  rw [refuses_iff, exception, get]
  rcases frame.slots[slot]? with _ | _ | v
  · exact error_eq_error_iff
  · exact error_eq_error_iff
  · cases v <;> simp [SlotValue.kind] <;> exact eq_comm

theorem stack_error_iff : frame.stack slot = .error f ↔ frame.Refuses slot "stack" f := by
  rw [refuses_iff, stack, get]
  rcases frame.slots[slot]? with _ | _ | v
  · exact error_eq_error_iff
  · exact error_eq_error_iff
  · cases v <;> simp [SlotValue.kind] <;> exact eq_comm

theorem pointer_error_iff : frame.pointer slot = .error f ↔ frame.Refuses slot "pointer" f := by
  rw [refuses_iff, pointer, get]
  rcases frame.slots[slot]? with _ | _ | v
  · exact error_eq_error_iff
  · exact error_eq_error_iff
  · cases v <;> simp [SlotValue.kind] <;> exact eq_comm

end Frame

/-! ## Tables as collaborators -/

/-- Symbol tables and type graphs behind all handles. -/
def Collaborators.ofTables (symbols : ResolverId → SymbolTable) (graphs : MatcherId → TypeGraph) :
    Collaborators where
  resolve id frame o := (symbols id).resolve frame o
  canCatch id q := (graphs id).canCatch q.header q.type

theorem TypeGraph.canCatch_error_iff {g : TypeGraph} {header type : Address} {f : Fault} :
    g.canCatch header type = .error f ↔
      g.thrownType header = none ∧ f = .unknownUnwindHeader header := by
  rw [canCatch]
  cases g.thrownType header <;> simp [eq_comm]

namespace Pad

section Relation
variable (p : Pad) (world : Collaborators) (env : Environment) (frame : Frame) (held : Holdings)

/-- The dispatch reads exception `e` from its frame, and `s` is what its clauses see. -/
def Opens (e : ThrownException) (s : Scene) : Prop :=
  ∃ stack, frame.exception p.exceptionSlot = .ok e ∧ frame.stack p.stackSlot = .ok stack ∧
    s = env.scene world frame stack e.header

/-- The dispatch resolves the operand: it is that of an entry that is met, or the destination of a
pad that fires. -/
def Resolves (o : Operand) : Prop :=
  ∃ e s, p.Opens world env frame e s ∧
    ((∃ x : Entry, x.Met p s held ∧ x.operand = o) ∨
      (∃ v, p.Fires (Asked held s) v) ∧ p.destination = o)

/-- The dispatch puts the question for one of the entries that it meets. -/
def Asks (a : MatcherId × Query) : Prop :=
  ∃ e s, p.Opens world env frame e s ∧ ∃ x : Entry, x.Met p s held ∧ x.question? s held = some a

/-- The pad fires on exception `e`, and `d` is the address of its destination. -/
def Places (e : ThrownException) (d : Address) : Prop :=
  ∃ s v, p.Opens world env frame e s ∧ p.Fires (Asked held s) v ∧ s.resolve p.destination = .ok d

/-- The slots that the dispatch reads, and the kind of value that it wants of each. -/
inductive Reads : Nat → String → Prop
  | exception : Reads p.exceptionSlot "exception"
  | stack {e} (he : frame.exception p.exceptionSlot = .ok e) : Reads p.stackSlot "stack"
  | operand {i} (h : p.Resolves world env frame held (.slot i)) : Reads i "pointer"

end Relation

section Relation
variable (symbols : ResolverId → SymbolTable) (graphs : MatcherId → TypeGraph) (p : Pad)
  (env : Environment) (frame : Frame) (held : Holdings) (m : Memory)

/-- What makes a dispatch fail whose collaborators are tables. -/
inductive Cause : Fault → Prop
  | slot {i wanted f} (h : p.Reads (.ofTables symbols graphs) env frame held i wanted)
      (hf : frame.Refuses i wanted f) : Cause f
  | undefined {name} (h : p.Resolves (.ofTables symbols graphs) env frame held (.symbol name))
      (hn : (symbols env.resolver).lookup name = none) : Cause (.unresolvedSymbol name)
  | unregistered {a} (h : p.Asks (.ofTables symbols graphs) env frame held a)
      (ha : (graphs a.1).thrownType a.2.header = none) : Cause (.unknownUnwindHeader a.2.header)
  | tooWide {e d} (h : p.Places (.ofTables symbols graphs) env frame held e d)
      (hl : env.config.layout.width = .bits32) (he : UInt32.size ≤ e.header.toNat) :
      Cause (.addressOutOfRange e.header 32)
  | noRoom {e d} (h : p.Places (.ofTables symbols graphs) env frame held e d)
      (he : e.header.toNat < env.config.layout.pointerBound)
      (hd : ¬ m.Holds d.toNat (Record.size env.config.layout)) :
      Cause (.invalidPointer d (m.complaint d))

end Relation

/-! ## The step that fails -/

section Exits
variable {world : Collaborators} {symbols : ResolverId → SymbolTable} {graphs : MatcherId → TypeGraph}
  {p : Pad} {env : Environment} {frame : Frame} {held : Holdings} {m m' : Memory} {x : Exit} {s : Scene}
  {o : Operand} {f : Fault}

/-- The fault of the clauses is that of an entry that is met. -/
theorem chooses_error_iff : Chooses (Asked held s) p.clauses (.error f) ↔
    ∃ x : Entry, x.Met p s held ∧
      s.Faults (held.matcherOr s.matcher x.clause) x.operand f := by
  constructor
  · generalize hr : Except.error f = r
    intro h
    cases h with
    | matched => cases hr
    | missed => cases hr
    | @failed k c f' hc hp h =>
      cases hr
      obtain ⟨place, o, ho, hf⟩ := Scene.makes_error_iff.1 h
      exact ⟨⟨k, place, o⟩, ⟨hp, c, hc, ho⟩, hf⟩
  · rintro ⟨x, ⟨hp, c, hc, ho⟩, hf⟩
    exact .failed hc hp (Scene.makes_error_iff.2 ⟨x.place, x.operand, ho, hf⟩)

/-- An operand that is resolved and fails is the end of the dispatch. -/
theorem exits_of_resolves (h : p.Resolves world env frame held o)
    (hf : world.resolve env.resolver frame o = .error f) :
    ∃ x m', p.Exits world env frame held m x m' ∧ x.outcome = .error f := by
  obtain ⟨e, s, ⟨stack, he, hs, rfl⟩, ⟨x, hx, rfl⟩ | ⟨⟨v, hv⟩, rfl⟩⟩ := h
  · exact ⟨_, _, .read he hs (.undecided (chooses_error_iff.2 ⟨x, hx, .inl hf⟩)), rfl⟩
  · exact ⟨_, _, .read he hs (.unplaced hv hf), rfl⟩

theorem Cause.exits (h : Cause symbols graphs p env frame held m f) (hm : m.Sound) :
    ∃ x m', p.Exits (.ofTables symbols graphs) env frame held m x m' ∧ x.outcome = .error f := by
  cases h with
  | slot h hf =>
    cases h with
    | exception => exact ⟨_, _, .noException (Frame.exception_error_iff.2 hf), rfl⟩
    | stack he => exact ⟨_, _, .noStack he (Frame.stack_error_iff.2 hf), rfl⟩
    | operand h => exact exits_of_resolves h (Frame.pointer_error_iff.2 hf)
  | @undefined name h hn =>
    refine exits_of_resolves h ?_
    simp only [Collaborators.ofTables, SymbolTable.resolve, hn]
  | @unregistered a h ha =>
    obtain ⟨e, s, ⟨stack, he, hs, rfl⟩, x, hx, hq⟩ := h
    obtain ⟨type, ho, hn, hid, hquery⟩ := Scene.question?_eq_some_iff.1 hq
    rw [hid, hquery] at ha
    rw [hquery]
    have hanswer := (@TypeGraph.canCatch_error_iff _ _ type _).2 ⟨ha, rfl⟩
    exact ⟨_, _, .read he hs (.undecided
      (chooses_error_iff.2 ⟨x, hx, .inr ⟨type, ho, hn, hanswer⟩⟩)), rfl⟩
  | tooWide h hl he' =>
    obtain ⟨s, v, ⟨stack, he, hs, rfl⟩, hv, hd⟩ := h
    exact ⟨_, _, .read he hs (.unencodable hv hd
      (Layout.encodePointer_error_iff.2 ⟨hl, he', rfl⟩)), rfl⟩
  | noRoom h he' hd' =>
    obtain ⟨s, v, ⟨stack, he, hs, rfl⟩, hv, hd⟩ := h
    have hb := Layout.encodePointer_ok_iff.2 ⟨he', rfl⟩
    refine ⟨_, _, .read he hs (.refused hv hd hb (hm.write_error_iff.2 ⟨?_, rfl, rfl⟩)), rfl⟩
    rwa [List.length_append, Layout.length_of_encodePointer hb, Layout.length_encodeInt32]

theorem cause_of_resolves (h : p.Resolves (.ofTables symbols graphs) env frame held o)
    (hf : (symbols env.resolver).resolve frame o = .error f) :
    Cause symbols graphs p env frame held m f := by
  cases o with
  | null => cases hf
  | address a => cases hf
  | slot i => exact .slot (.operand h) (Frame.pointer_error_iff.1 hf)
  | symbol name =>
    rw [SymbolTable.resolve] at hf
    split at hf
    · rename_i hn
      cases hf
      exact .undefined h hn
    · cases hf

theorem Exits.cause (h : p.Exits (.ofTables symbols graphs) env frame held m x m') (hm : m.Sound)
    (hf : x.outcome = .error f) : Cause symbols graphs p env frame held m f := by
  cases h with
  | noException he =>
    cases hf
    exact .slot .exception (Frame.exception_error_iff.1 he)
  | noStack he hs =>
    cases hf
    exact .slot (.stack he) (Frame.stack_error_iff.1 hs)
  | @read e stack x m' he hs h =>
    have hopens : p.Opens (.ofTables symbols graphs) env frame e
        (env.scene (.ofTables symbols graphs) frame stack e.header) := ⟨stack, he, hs, rfl⟩
    cases h with
    | undecided h =>
      -- the clauses fail at an entry that is met: on its operand, or on the question about its type
      cases hf
      obtain ⟨x, hx, hr | ⟨type, hr, hn, ha⟩⟩ := chooses_error_iff.1 h
      · exact cause_of_resolves ⟨e, _, hopens, .inl ⟨x, hx, rfl⟩⟩ hr
      · obtain ⟨ht, rfl⟩ := TypeGraph.canCatch_error_iff.1 ha
        exact .unregistered ⟨e, _, hopens, x, hx,
          Scene.question?_eq_some_iff.2 ⟨type, hr, hn, rfl, rfl⟩⟩ ht
    | resumed => cases hf
    | @unplaced v f h hd =>
      cases hf
      exact cause_of_resolves ⟨e, _, hopens, .inr ⟨⟨v, h⟩, rfl⟩⟩ hd
    | @unencodable v d f h hd hb =>
      cases hf
      obtain ⟨hl, he', rfl⟩ := Layout.encodePointer_error_iff.1 hb
      exact .tooWide ⟨_, v, hopens, h, hd⟩ hl he'
    | @refused v d bs f m' h hd hb hw =>
      cases hf
      obtain ⟨hn, rfl, -⟩ := hm.write_error_iff.1 hw
      refine .noRoom ⟨_, v, hopens, h, hd⟩ (Layout.encodePointer_ok_iff.1 hb).1 ?_
      rwa [List.length_append, Layout.length_of_encodePointer hb, Layout.length_encodeInt32] at hn
    | landed => cases hf

end Exits

/-! ## What a fault tells -/

section Inversion
variable {world : Collaborators} {symbols : ResolverId → SymbolTable} {graphs : MatcherId → TypeGraph}
  {p : Pad} {env : Environment} {frame : Frame} {held : Holdings} {m : Memory} {f : Fault}
  {i : Nat} {wanted : String}

theorem Reads.eq_exceptionSlot (h : p.Reads world env frame held i wanted)
    (hw : wanted = "exception") : i = p.exceptionSlot := by
  cases h with
  | exception => rfl
  | stack => exact absurd hw (by decide)
  | operand => exact absurd hw (by decide)

theorem cause_frameFault_iff : Cause symbols graphs p env frame held m f ∧ f.isFrameFault = true ↔
    ∃ i wanted, p.Reads (.ofTables symbols graphs) env frame held i wanted ∧
      frame.Refuses i wanted f := by
  constructor
  · rintro ⟨h, hf⟩
    cases h with
    | slot h hr => exact ⟨_, _, h, hr⟩
    | undefined => cases hf
    | unregistered => cases hf
    | tooWide => cases hf
    | noRoom => cases hf
  · rintro ⟨i, wanted, h, hr⟩
    exact ⟨.slot h hr, by cases hr <;> rfl⟩

theorem cause_missingException_iff : Cause symbols graphs p env frame held m (.missingException i) ↔
    i = p.exceptionSlot ∧ frame.slots[i]? = some none := by
  constructor
  · intro h
    obtain ⟨i, wanted, hread, hr⟩ := cause_frameFault_iff.1 ⟨h, rfl⟩
    cases hr with
    | missing hs hw => exact ⟨hread.eq_exceptionSlot hw, hs⟩
  · rintro ⟨rfl, hs⟩
    exact .slot .exception (.missing hs rfl)

theorem cause_slotOutOfBounds_iff {n : Nat} :
    Cause symbols graphs p env frame held m (.slotOutOfBounds i n) ↔
      (∃ wanted, p.Reads (.ofTables symbols graphs) env frame held i wanted) ∧
        frame.count ≤ i ∧ n = frame.count := by
  constructor
  · intro h
    obtain ⟨i, wanted, hread, hr⟩ := cause_frameFault_iff.1 ⟨h, rfl⟩
    cases hr with
    | outOfBounds hs => exact ⟨⟨wanted, hread⟩, List.getElem?_eq_none_iff.1 hs, rfl⟩
  · rintro ⟨⟨wanted, h⟩, hn, rfl⟩
    exact .slot h (.outOfBounds (List.getElem?_eq_none_iff.2 hn))

theorem cause_slotTypeMismatch_iff {found : String} :
    Cause symbols graphs p env frame held m (.slotTypeMismatch i wanted found) ↔
      p.Reads (.ofTables symbols graphs) env frame held i wanted ∧
        (frame.slots[i]? = some none ∧ wanted ≠ "exception" ∧ found = "empty" ∨
          ∃ v, frame.slots[i]? = some (some v) ∧ v.kind ≠ wanted ∧ found = v.kind) := by
  constructor
  · intro h
    obtain ⟨i, wanted, hread, hr⟩ := cause_frameFault_iff.1 ⟨h, rfl⟩
    cases hr with
    | empty hs hw => exact ⟨hread, .inl ⟨hs, hw, rfl⟩⟩
    | otherKind hs hv => exact ⟨hread, .inr ⟨_, hs, hv, rfl⟩⟩
  · rintro ⟨h, ⟨hs, hw, rfl⟩ | ⟨v, hs, hv, rfl⟩⟩
    · exact .slot h (.empty hs hw)
    · exact .slot h (.otherKind hs hv)

theorem cause_unresolvedSymbol_iff {name : String} :
    Cause symbols graphs p env frame held m (.unresolvedSymbol name) ↔
      p.Resolves (.ofTables symbols graphs) env frame held (.symbol name) ∧
        (symbols env.resolver).lookup name = none := by
  constructor
  · intro h
    cases h with
    | slot _ hr => cases hr
    | undefined h hn => exact ⟨h, hn⟩
  · rintro ⟨h, hn⟩
    exact .undefined h hn

theorem cause_unknownUnwindHeader_iff {header : Address} :
    Cause symbols graphs p env frame held m (.unknownUnwindHeader header) ↔
      ∃ a, p.Asks (.ofTables symbols graphs) env frame held a ∧ a.2.header = header ∧
        (graphs a.1).thrownType header = none := by
  constructor
  · intro h
    cases h with
    | slot _ hr => cases hr
    | @unregistered a h ha => exact ⟨a, h, rfl, ha⟩
  · rintro ⟨a, h, rfl, ha⟩
    exact .unregistered h ha

theorem cause_addressOutOfRange_iff {a : Address} {bits : Nat} :
    Cause symbols graphs p env frame held m (.addressOutOfRange a bits) ↔
      (∃ e d, p.Places (.ofTables symbols graphs) env frame held e d ∧ a = e.header) ∧
        env.config.layout.width = .bits32 ∧ UInt32.size ≤ a.toNat ∧ bits = 32 := by
  constructor
  · intro h
    cases h with
    | slot _ hr => cases hr
    | @tooWide e d h hl he => exact ⟨⟨e, d, h, rfl⟩, hl, he, rfl⟩
  · rintro ⟨⟨e, d, h, rfl⟩, hl, he, rfl⟩
    exact .tooWide h hl he

theorem cause_invalidPointer_iff {a : Address} {reason : String} :
    Cause symbols graphs p env frame held m (.invalidPointer a reason) ↔
      (∃ e, p.Places (.ofTables symbols graphs) env frame held e a ∧
        e.header.toNat < env.config.layout.pointerBound) ∧
        ¬ m.Holds a.toNat (Record.size env.config.layout) ∧ reason = m.complaint a := by
  constructor
  · intro h
    cases h with
    | slot _ hr => cases hr
    | @noRoom e d h he hd => exact ⟨⟨e, h, he⟩, hd, rfl⟩
  · rintro ⟨⟨e, h, he⟩, hd, rfl⟩
    exact .noRoom h he hd

theorem not_cause_memoryLimitExceeded {current limit : Nat} :
    ¬ Cause symbols graphs p env frame held m (.memoryLimitExceeded current limit) := by
  intro h
  cases h with
  | slot _ hr => cases hr

theorem not_cause_internal {description : String} :
    ¬ Cause symbols graphs p env frame held m (.internal description) := by
  intro h
  cases h with
  | slot _ hr => cases hr

end Inversion

end Pad

/-! ## The fault of a dispatch -/

namespace Context
variable {c : Context} {world : Collaborators} {symbols : ResolverId → SymbolTable}
  {graphs : MatcherId → TypeGraph} {p : Pad} {held : Holdings} {frame : Frame} {m : Memory}
  {d : Scratch} {f : Fault}

theorem mem_asked_iff {a : MatcherId × Query} : a ∈ (c.dispatch world p held frame m d).asked ↔
    p.Asks world c.environment frame held a := by
  constructor
  · intro h
    obtain ⟨e, stack, he, hs⟩ | hun := p.reads_or frame
    · rw [asked_dispatch he hs] at h
      obtain ⟨x, hx, hq⟩ := List.mem_filterMap.1 h
      exact ⟨e, _, ⟨stack, he, hs, rfl⟩, x, Pad.mem_met_iff.1 hx, hq⟩
    · rw [(dispatch_unread hun).2.2] at h
      cases h
  · rintro ⟨e, s, ⟨stack, he, hs, rfl⟩, x, hx, hq⟩
    rw [asked_dispatch he hs]
    exact List.mem_filterMap.2 ⟨x, Pad.mem_met_iff.2 hx, hq⟩

/-- A dispatch fails with the fault that has a cause. -/
theorem result_error_iff (hm : m.Sound) :
    (c.dispatch (.ofTables symbols graphs) p held frame m d).result = .error f ↔
      Pad.Cause symbols graphs p c.environment frame held m f := by
  constructor
  · intro h
    obtain ⟨x, hx, hr⟩ := c.exists_exit (.ofTables symbols graphs) p held frame m d
    exact hx.cause hm (hr.trans h)
  · intro h
    obtain ⟨x, m', hx, hf⟩ := h.exits hm
    exact (c.dispatch_of_exits (.ofTables symbols graphs) p held frame m d hx).1.trans hf

/-- The fault of a dispatch tells the step that failed: a slot that was read, an operand that was
resolved, a question that was asked, or the record that had no place. Neither the budget of the
memory nor the decoding of bytes has a part in it. -/
theorem fault_names_cause (c : Context) (symbols : ResolverId → SymbolTable)
    (graphs : MatcherId → TypeGraph) (p : Pad) (held : Holdings) (frame : Frame) (m : Memory)
    (d : Scratch) (hm : m.Reachable) :
    let world : Collaborators := .ofTables symbols graphs
    let env := c.environment
    let l := env.config.layout
    let r := c.dispatch world p held frame m d
    (∀ f, r.result = .error f ∧ f.isFrameFault = true ↔
      ∃ slot wanted, p.Reads world env frame held slot wanted ∧ frame.Refuses slot wanted f) ∧
    (∀ slot, r.result = .error (.missingException slot) ↔
      slot = p.exceptionSlot ∧ frame.slots[slot]? = some none) ∧
    (∀ slot n, r.result = .error (.slotOutOfBounds slot n) ↔
      (∃ wanted, p.Reads world env frame held slot wanted) ∧ frame.count ≤ slot ∧
        n = frame.count) ∧
    (∀ slot wanted found, r.result = .error (.slotTypeMismatch slot wanted found) ↔
      p.Reads world env frame held slot wanted ∧
        (frame.slots[slot]? = some none ∧ wanted ≠ "exception" ∧ found = "empty" ∨
          ∃ v, frame.slots[slot]? = some (some v) ∧ v.kind ≠ wanted ∧ found = v.kind)) ∧
    (∀ name, r.result = .error (.unresolvedSymbol name) ↔
      p.Resolves world env frame held (.symbol name) ∧
        (symbols env.resolver).lookup name = none) ∧
    (∀ header, r.result = .error (.unknownUnwindHeader header) ↔
      ∃ a ∈ r.asked, a.2.header = header ∧ (graphs a.1).thrownType header = none) ∧
    (∀ a bits, r.result = .error (.addressOutOfRange a bits) ↔
      (∃ e record, p.Places world env frame held e record ∧ a = e.header) ∧
        l.width = .bits32 ∧ 2 ^ 32 ≤ a.toNat ∧ bits = 32) ∧
    (∀ a reason, r.result = .error (.invalidPointer a reason) ↔
      (∃ e, p.Places world env frame held e a ∧ e.header.toNat < l.pointerBound) ∧
        ¬ m.Holds a.toNat (Record.size l) ∧ reason = m.complaint a) ∧
    (∀ current limit, r.result ≠ .error (.memoryLimitExceeded current limit)) ∧
    ∀ description, r.result ≠ .error (.internal description) := by
  intro world env l r
  have hr {f : Fault} : r.result = .error f ↔ Pad.Cause symbols graphs p env frame held m f :=
    result_error_iff hm.sound
  refine ⟨fun f => (and_congr_left' hr).trans Pad.cause_frameFault_iff,
    fun slot => hr.trans Pad.cause_missingException_iff,
    fun slot n => hr.trans Pad.cause_slotOutOfBounds_iff,
    fun slot wanted found => hr.trans Pad.cause_slotTypeMismatch_iff,
    fun name => hr.trans Pad.cause_unresolvedSymbol_iff, fun header => ?_,
    fun a bits => hr.trans Pad.cause_addressOutOfRange_iff,
    fun a reason => hr.trans Pad.cause_invalidPointer_iff,
    fun current limit h => Pad.not_cause_memoryLimitExceeded (hr.1 h),
    fun description h => Pad.not_cause_internal (hr.1 h)⟩
  rw [hr, Pad.cause_unknownUnwindHeader_iff]
  simp only [r, mem_asked_iff]
  rfl

/-- One pad names a slot of another kind behind a clause that spares the exception. The other fires
with a destination whose region is too small for a record. -/
theorem faults_of_slot_and_place :
    let c : Context := ⟨⟨{}, ⟨0⟩, ⟨0⟩⟩, none, 0⟩
    let symbols (_ : ResolverId) : SymbolTable := .define .empty "T" ⟨0x10⟩
    let graphs (_ : MatcherId) : TypeGraph := .registerException .empty ⟨0x9000⟩ ⟨0x20⟩
    let world : Collaborators := .ofTables symbols graphs
    let base := MemoryConfig.baseFor .bits64
    let scanning : Pad :=
      ⟨"pad", 0, 1, .null, [.catching (.symbol "T"), .filtering [.slot 2, .null]], true⟩
    let placed : Pad := ⟨"pad", 0, 1, .address base, [], true⟩
    let frame : Frame :=
      ⟨[some (.exception ⟨0, ⟨0x9000⟩⟩), some (.stack ⟨0x70⟩), some (.int32 5)]⟩
    let m := Action.final (Memory.alloc 8 (.new (.forWidth .bits64)))
    let scan := c.dispatch world scanning {} frame m {}
    let place := c.dispatch world placed {} frame m {}
    m.Reachable ∧
    scan.result = .error (.slotTypeMismatch 2 "pointer" "i32") ∧
    scanning.Reads world c.environment frame {} 2 "pointer" ∧
    place.result = .error (.invalidPointer base "access would exceed region bounds") ∧
    ¬ m.Holds base.toNat 12 := by
  intro c symbols graphs world base scanning placed frame m scan place
  have hm : m.Reachable := .alloc 8 (.new (.forWidth .bits64))
  have hscan : scan.result = .error (.slotTypeMismatch 2 "pointer" "i32") := by cbv
  have hplace : place.result = .error (.invalidPointer base "access would exceed region bounds") := by
    cbv
  obtain ⟨-, -, -, hmismatch, -⟩ :=
    fault_names_cause c symbols graphs scanning {} frame m {} hm
  obtain ⟨-, -, -, -, -, -, -, hinvalid, -⟩ :=
    fault_names_cause c symbols graphs placed {} frame m {} hm
  exact ⟨hm, hscan, ((hmismatch 2 "pointer" "i32").1 hscan).1, hplace,
    ((hinvalid _ _).1 hplace).2.1⟩

end Context

end Unwinding
