import Unwinding.Proofs.Pad.Exit
import Unwinding.Proofs.Record.Encoding
import Unwinding.SymbolTable

/-!
# What a dispatch does to memory

A dispatch that lands stores its record in one piece, in one live region. Every other dispatch
leaves memory as it was, and of those only one that memory itself refuses has tried to store.
-/
namespace Unwinding

/-- How often a dispatch with this end calls on memory to store bytes. -/
def Exit.stores : Exit → Nat
  | landed .. | refused _ => 1
  | _ => 0

namespace Pad
variable {p : Pad} {world : Collaborators} {env : Environment} {frame : Frame} {held : Holdings}
  {m m' : Memory} {x : Exit}

/-- An end other than landing leaves memory untouched, but for the count of stores. -/
theorem Exits.untouched (h : p.Exits world env frame held m x m')
    (hx : ∀ record selector, x ≠ .landed record selector) :
    m.Untouched m' ∧ m'.writes = m.writes + x.stores := by
  cases h with
  | noException => exact ⟨.refl m, rfl⟩
  | noStack => exact ⟨.refl m, rfl⟩
  | read he hs h =>
    cases h with
    | undecided => exact ⟨.refl m, rfl⟩
    | resumed => exact ⟨.refl m, rfl⟩
    | unplaced => exact ⟨.refl m, rfl⟩
    | unencodable => exact ⟨.refl m, rfl⟩
    | refused hf hd hb hw =>
      obtain rfl := Memory.final_write_of_error hw
      exact ⟨⟨rfl, rfl, rfl, rfl⟩, rfl⟩
    | landed => exact absurd rfl (hx _ _)

/-- A landing is one store of the encoded record at the destination. -/
theorem Exits.store {record : Address} {selector : Selector}
    (h : p.Exits world env frame held m (.landed record selector) m') :
    ∃ e bs, frame.exception p.exceptionSlot = .ok e ∧
      env.config.layout.encodePointer e.header = .ok bs ∧
      Memory.write record (bs ++ env.config.layout.encodeInt32 selector.code) m = .ok () m' := by
  cases h with
  | @read e stack x m' he hs h =>
    cases h with
    | @landed v d bs m' hf hd hb hw => exact ⟨e, bs, he, hb, hw⟩

end Pad

theorem Exit.outcome_eq_landed {x : Exit} {record : Address} {selector : Selector} :
    x.outcome = .ok (.landed record selector) ↔ x = .landed record selector := by
  cases x <;> simp [outcome]

/-- A dispatch stores one encoded record where it lands, and otherwise leaves memory untouched. -/
theorem Context.dispatch_memory_cases (c : Context) (world : Collaborators) (p : Pad)
    (held : Holdings) (frame : Frame) (m : Memory) (d : Scratch) :
    let r := c.dispatch world p held frame m d
    (∀ record selector, r.result ≠ .ok (.landed record selector)) ∧ m.Untouched r.memory ∨
      ∃ record selector e bs, r.result = .ok (.landed record selector) ∧
        frame.exception p.exceptionSlot = .ok e ∧
        Record.encode ⟨e.header, selector⟩ c.environment.config.layout = .ok bs ∧
        Memory.write record bs m = .ok () r.memory := by
  intro r
  obtain ⟨x, h, hr⟩ := c.exists_exit world p held frame m d
  by_cases hx : ∃ record selector, x = .landed record selector
  · obtain ⟨record, selector, rfl⟩ := hx
    obtain ⟨e, bs, he, hb, hw⟩ := h.store
    refine .inr ⟨record, selector, e, _, hr.symm, he, ?_, hw⟩
    exact Record.encode_ok_iff.2 ⟨bs, hb, rfl⟩
  · refine .inl ⟨fun record selector hl => hx ⟨record, selector, ?_⟩, ?_⟩
    · exact Exit.outcome_eq_landed.1 (hr.trans hl)
    · exact (h.untouched fun record selector hl => hx ⟨record, selector, hl⟩).1

/-- A dispatch changes the bytes of its record if it lands, and otherwise nothing. It stores once if
it lands or is refused by memory, and otherwise never. -/
theorem Context.dispatch_stores_record (c : Context) (world : Collaborators) (p : Pad)
    (held : Holdings) (frame : Frame) (m : Memory) (d : Scratch) (hm : m.Reachable) :
    let r := c.dispatch world p held frame m d
    let l := c.environment.config.layout
    ((∀ record selector, r.result ≠ .ok (.landed record selector)) → m.Untouched r.memory) ∧
    (∀ record selector, r.result = .ok (.landed record selector) →
      ∃ e bs, frame.exception p.exceptionSlot = .ok e ∧ l.encodePointer e.header = .ok bs ∧
        (bs ++ l.encodeInt32 selector.code).length = Record.size l ∧
        m.Overwritten r.memory record.toNat (bs ++ l.encodeInt32 selector.code)) ∧
    ∃ x, (∀ y m', p.Exits world c.environment frame held m y m' ↔ y = x ∧ m' = r.memory) ∧
      r.result = x.outcome ∧ r.memory.writes = m.writes + x.stores := by
  intro r l
  obtain ⟨x, h, hr⟩ := c.exists_exit world p held frame m d
  refine ⟨fun hn => ?_, fun record selector hl => ?_, x, fun y m' => ⟨fun hy => ?_, ?_⟩, hr.symm, ?_⟩
  · refine (h.untouched fun record selector hx => ?_).1
    subst hx
    exact hn record selector hr.symm
  · obtain rfl := Exit.outcome_eq_landed.1 (hr.trans hl)
    obtain ⟨e, bs, he, hb, hw⟩ := h.store
    have henc := Record.encode_ok_iff (r := ⟨e.header, selector⟩).2 ⟨bs, hb, rfl⟩
    exact ⟨e, bs, he, hb, Record.length_of_encode henc, hm.sound.overwritten_of_write hw⟩
  · exact hy.unique h
  · rintro ⟨rfl, rfl⟩
    exact h
  · by_cases hx : ∃ record selector, x = .landed record selector
    · obtain ⟨record, selector, rfl⟩ := hx
      obtain ⟨e, bs, -, -, hw⟩ := h.store
      exact Memory.writes_of_write hw
    · exact (h.untouched fun record selector hl => hx ⟨record, selector, hl⟩).2

/-- An empty filter lands its record in a region of sixteen bytes. -/
theorem Context.filter_stores_record :
    let c : Context := ⟨⟨{}, ⟨0⟩, ⟨0⟩⟩, none, 0⟩
    let world : Collaborators :=
      ⟨fun _ frame o => SymbolTable.empty.resolve frame o, fun _ _ => .ok false⟩
    let base := MemoryConfig.baseFor .bits64
    let p : Pad := ⟨"pad", 0, 1, .address base, [.filtering []], false⟩
    let frame : Frame := ⟨[some (.exception ⟨0, ⟨0x9000⟩⟩), some (.stack ⟨0x10⟩)]⟩
    let m := Action.final (Memory.alloc 16 (.new (.forWidth .bits64)))
    let r := c.dispatch world p {} frame m {}
    let l := c.environment.config.layout
    m.Reachable ∧ r.result = .ok (.landed base .filter) ∧
      ∃ e bs, frame.exception p.exceptionSlot = .ok e ∧ l.encodePointer e.header = .ok bs ∧
        (bs ++ l.encodeInt32 Selector.filter.code).length = Record.size l ∧
        m.Overwritten r.memory base.toNat (bs ++ l.encodeInt32 Selector.filter.code) := by
  intro c world base p frame m r l
  have hm : m.Reachable := .alloc 16 (.new (.forWidth .bits64))
  have hr : r.result = .ok (.landed base .filter) := by cbv
  exact ⟨hm, hr, (Context.dispatch_stores_record c world p {} frame m {} hm).2.1 _ _ hr⟩

end Unwinding
