import Unwinding.Proofs.Pad.Atomicity

/-!
# Records last

The one buffer that a landing stores is what two reads get back, header first and selector behind
it. This stays so under every call on the memory that fails or has nothing to do with the range of
the record, other dispatches included.
-/
namespace Unwinding

namespace Memory

/-- A call on a memory, by itself or through a dispatch. -/
inductive Call
  | alloc (size : UInt64)
  | free (a : Address)
  | read (a : Address) (length : Nat)
  | write (a : Address) (data : List UInt8)
  | writePointer (l : Layout) (a value : Address)
  | writeInt32 (l : Layout) (a : Address) (value : Int32)
  | writeRecord (l : Layout) (destination : Address) (r : Record)
  | dispatch (c : Context) (world : Collaborators) (p : Pad) (held : Holdings) (frame : Frame)
      (d : Scratch)

namespace Call

def action : Call → Action Memory Unit
  | alloc size => do let _ ← Memory.alloc size
  | free a => Memory.free a
  | read a length => do let _ ← Action.settle ((← get).read a length)
  | write a data => Memory.write a data
  | writePointer l a value => Memory.writePointer l a value
  | writeInt32 l a value => Memory.writeInt32 l a value
  | writeRecord l destination r => do let _ ← r.write l destination
  | dispatch c world p held frame d => fun m =>
    let r := c.dispatch world p held frame m d
    match r.result with
    | .ok _ => .ok () r.memory
    | .error f => .error f r.memory

/-- The call frees a region or stores bytes elsewhere than from `b` to `b + k`. -/
def Avoids (m : Memory) (b k : Nat) : Call → Prop
  | alloc _ | read .. => True
  | free a => ∀ r ∈ m.regions, r.Covers b k → r.base ≠ a
  | write a data => Apart a.toNat data.length b k
  | writePointer l a _ => Apart a.toNat l.pointerSize b k
  | writeInt32 _ a _ => Apart a.toNat 4 b k
  | writeRecord l destination _ => Apart destination.toNat (Record.size l) b k
  | dispatch c world p held frame d => ∀ record selector,
      (c.dispatch world p held frame m d).result = .ok (.landed record selector) →
        Apart record.toNat (Record.size c.environment.config.layout) b k

/-- The call fails, or avoids the range. -/
def Spares (m : Memory) (b k : Nat) (c : Call) : Prop :=
  ∀ m', c.action m = .ok () m' → c.Avoids m b k

end Call

/-- The memory after a row of calls, whether or not they succeed. -/
def after : Memory → List Call → Memory
  | m, [] => m
  | m, c :: cs => after (Action.final (c.action m)) cs

/-- Each call of the row spares the range in the memory that it is made on. -/
def AllSpare (b k : Nat) : Memory → List Call → Prop
  | _, [] => True
  | m, c :: cs => c.Spares m b k ∧ AllSpare b k (Action.final (c.action m)) cs

/-! ## One call -/

/-- What a call can do that spares the range from `b` to `b + k`. -/
inductive Spared (m : Memory) (b k : Nat) : Memory → Prop
  | untouched {m'} (h : m.Untouched m') : Spared m b k m'
  | alloc {m'} {size : UInt64} {a : Address} (h : Memory.alloc size m = .ok a m') : Spared m b k m'
  | free {m'} {a : Address} (h : Memory.free a m = .ok () m')
      (hb : ∀ r ∈ m.regions, r.Covers b k → r.base ≠ a) : Spared m b k m'
  | write {m'} {a : Address} {data : List UInt8} (h : Memory.write a data m = .ok () m')
      (hb : Apart a.toNat data.length b k) : Spared m b k m'

variable {m m' : Memory} {b k : Nat}

theorem Stores.of_untouched {bs : List UInt8} (h : m.Stores b bs) (hu : m.Untouched m') :
    m'.Stores b bs := by
  rw [Stores, hu.regions]
  exact h

theorem Spared.sound (h : m.Spared b k m') (hm : m.Sound) : m'.Sound := by
  cases h with
  | untouched h => exact hm.of_untouched h
  | alloc h => exact hm.alloc h
  | free h => exact hm.free h
  | write h => exact hm.write h

theorem Spared.stores {bs : List UInt8} (h : m.Spared b bs.length m') (hs : m.Stores b bs) :
    m'.Stores b bs := by
  cases h with
  | untouched h => exact hs.of_untouched h
  | alloc h => exact hs.alloc h
  | free h hb => exact hs.free h hb
  | write h hb => exact hs.write h hb

/-- A store spares the range if it fails or goes elsewhere. -/
theorem spared_of_write {a : Address} {data : List UInt8} {r : EStateM.Result Fault Memory Unit}
    (hw : Memory.write a data m = r)
    (hb : ∀ m', r = .ok () m' → Apart a.toNat data.length b k) :
    m.Spared b k (Action.final r) := by
  cases r with
  | ok u m' => exact .write hw (hb m' rfl)
  | error f m' => exact .untouched (untouched_of_write_error hw)

namespace Call

/-- A call whose result is left aside ends as the call does. -/
private theorem final_ignore {α : Type} (x : Action Memory α) (m : Memory) :
    Action.final ((do let _ ← x : Action Memory Unit) m) = Action.final (x m) := by
  cases h : x m with
  | ok a m' =>
    rw [Action.bind_of_ok h]
    rfl
  | error f m' =>
    rw [Action.bind_of_error h]
    rfl

private theorem final_read (a : Address) (length : Nat) (m : Memory) :
    Action.final ((read a length).action m) = m := by
  rw [action, Action.bind_of_ok (x := get) rfl, final_ignore]
  cases m.read a length <;> rfl

private theorem spared_alloc (size : UInt64) :
    m.Spared b k (Action.final ((alloc size).action m)) := by
  rw [action, final_ignore]
  cases ha : Memory.alloc size m with
  | ok a m' => exact .alloc ha
  | error f m' =>
    obtain rfl := final_alloc_of_error ha
    exact .untouched (.refl _)

private theorem spared_free {a : Address} (h : (free a).Spares m b k) :
    m.Spared b k (Action.final ((free a).action m)) := by
  rw [action]
  cases hf : Memory.free a m with
  | ok u m' => exact .free hf (h m' hf)
  | error f m' =>
    obtain rfl := final_free_of_error hf
    exact .untouched (.refl _)

private theorem spared_writePointer {l : Layout} {a value : Address}
    (h : (writePointer l a value).Spares m b k) :
    m.Spared b k (Action.final ((writePointer l a value).action m)) := by
  rw [Spares] at h
  rw [action, writePointer_apply] at h ⊢
  cases hv : l.encodePointer value with
  | error f => exact .untouched (.refl _)
  | ok bs =>
    rw [hv] at h
    apply spared_of_write rfl
    intro m' hw
    rw [Layout.length_of_encodePointer hv]
    exact h m' hw

private theorem spared_writeInt32 {l : Layout} {a : Address} {value : Int32}
    (h : (writeInt32 l a value).Spares m b k) :
    m.Spared b k (Action.final ((writeInt32 l a value).action m)) := by
  apply spared_of_write rfl
  intro m' hw
  rw [Layout.length_encodeInt32]
  exact h m' hw

private theorem spared_writeRecord {l : Layout} {destination : Address} {r : Record}
    (h : (writeRecord l destination r).Spares m b k) :
    m.Spared b k (Action.final ((writeRecord l destination r).action m)) := by
  rw [action, final_ignore]
  cases hr : r.write l destination m with
  | error f m' => exact .untouched (Record.untouched_of_write_error hr)
  | ok b m' =>
    obtain ⟨rfl, bs, he, hw⟩ := Record.write_ok_iff.1 hr
    apply Spared.write hw
    rw [Record.length_of_encode he]
    apply h m'
    rw [action, Action.bind_of_ok hr]
    rfl

private theorem spared_dispatch {c : Context} {world : Collaborators} {p : Pad} {held : Holdings}
    {frame : Frame} {d : Scratch} (h : (dispatch c world p held frame d).Spares m b k) :
    m.Spared b k (Action.final ((dispatch c world p held frame d).action m)) := by
  have hf : Action.final ((dispatch c world p held frame d).action m) =
      (c.dispatch world p held frame m d).memory := by
    simp only [action]
    split <;> rfl
  rw [hf]
  rcases c.dispatch_memory_cases world p held frame m d with
    ⟨-, hu⟩ | ⟨record, selector, e, bs, hr, -, hb, hw⟩
  · exact .untouched hu
  · apply Spared.write hw
    rw [Record.length_of_encode hb]
    exact h (c.dispatch world p held frame m d).memory (by simp only [action, hr]) record selector hr

/-- A call that spares a range does one of the things that spare it. -/
theorem Spares.spared {c : Call} (h : c.Spares m b k) : m.Spared b k (Action.final (c.action m)) := by
  cases c with
  | alloc size => exact spared_alloc size
  | free a => exact spared_free h
  | read a length =>
    rw [final_read]
    exact .untouched (.refl m)
  | write a data => exact spared_of_write rfl h
  | writePointer l a value => exact spared_writePointer h
  | writeInt32 l a value => exact spared_writeInt32 h
  | writeRecord l destination r => exact spared_writeRecord h
  | dispatch c world p held frame d => exact spared_dispatch h

end Call

/-! ## A row of calls -/

theorem AllSpare.sound_and_stores {bs : List UInt8} {calls : List Call} (hm : m.Sound)
    (hs : m.Stores b bs) (h : AllSpare b bs.length m calls) :
    (m.after calls).Sound ∧ (m.after calls).Stores b bs := by
  induction calls generalizing m with
  | nil => exact ⟨hm, hs⟩
  | cons c cs ih =>
    have hc := h.1.spared
    exact ih (hc.sound hm) (hc.stores hs) h.2

end Memory

/-- A record that a dispatch has stored is read back, right away and after any calls that spare it. -/
theorem Context.read_of_landed (c : Context) (world : Collaborators) (p : Pad) (held : Holdings)
    (frame : Frame) (m : Memory) (d : Scratch) (record : Address) (selector : Selector)
    (calls : List Memory.Call) (hm : m.Reachable)
    (hr : (c.dispatch world p held frame m d).result = .ok (.landed record selector))
    (hc : Memory.AllSpare record.toNat (Record.size c.environment.config.layout)
      (c.dispatch world p held frame m d).memory calls) :
    ∃ e, frame.exception p.exceptionSlot = .ok e ∧
      Record.read ((c.dispatch world p held frame m d).memory.after calls)
        c.environment.config.layout record = .ok ⟨e.header, selector⟩ := by
  rcases c.dispatch_memory_cases world p held frame m d with
    ⟨hn, -⟩ | ⟨record', selector', e, bs, hr', he, hb, hw⟩
  · exact absurd hr (hn record selector)
  · obtain ⟨rfl, rfl⟩ : record' = record ∧ selector' = selector := by simpa using hr'.symm.trans hr
    rw [← Record.length_of_encode hb] at hc
    obtain ⟨hs, hstores⟩ := hc.sound_and_stores (hm.sound.write hw) (Memory.stores_of_write hw)
    exact ⟨e, he, Record.read_of_stores hs hb hstores⟩

/-- The record is still there after three calls that change the memory around it. -/
theorem Context.read_of_landed_amid_calls :
    let c : Context := ⟨⟨{}, ⟨0⟩, ⟨0⟩⟩, none, 0⟩
    let world : Collaborators :=
      ⟨fun _ frame o => SymbolTable.empty.resolve frame o, fun _ _ => .ok false⟩
    let base := MemoryConfig.baseFor .bits64
    let p : Pad := ⟨"pad", 0, 1, .address base, [.filtering []], false⟩
    let frame : Frame := ⟨[some (.exception ⟨0, ⟨0x9000⟩⟩), some (.stack ⟨0x10⟩)]⟩
    let m := Action.final (Memory.alloc 32 (Action.final
      (Memory.alloc 16 (.new (.forWidth .bits64)))))
    let r := c.dispatch world p {} frame m {}
    let l := c.environment.config.layout
    let calls : List Memory.Call :=
      [.free (base.offset 16), .alloc 8, .write (base.offset 12) [7, 7]]
    m.Reachable ∧ r.result = .ok (.landed base .filter) ∧
      Memory.AllSpare base.toNat (Record.size l) r.memory calls ∧
      ∃ e, frame.exception p.exceptionSlot = .ok e ∧
        Record.read (r.memory.after calls) l base = .ok ⟨e.header, .filter⟩ := by
  intro c world base p frame m r l calls
  have hm : m.Reachable := .alloc 32 (.alloc 16 (.new (.forWidth .bits64)))
  have hr : r.result = .ok (.landed base .filter) := by cbv
  have hc : Memory.AllSpare base.toNat (Record.size l) r.memory calls := by
    refine ⟨fun _ _ => ?_, fun _ _ => trivial, fun _ _ x h _ _ hx => ?_, trivial⟩
    · change ∀ s ∈ r.memory.regions, s.Covers _ _ → s.base ≠ _
      decide +kernel
    · have h₁ : (base.offset 12).toNat = base.toNat + 12 := by decide
      have h₂ : Record.size l = 12 := rfl
      omega
  exact ⟨hm, hr, hc, Context.read_of_landed c world p {} frame m {} base .filter calls hm hr hc⟩

end Unwinding
