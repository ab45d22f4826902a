import Unwinding.Proofs.Record.Straddling

/-!
# Records field by field

A record that is stored in one piece leaves the memory as its two fields do that are stored one after
the other, header first. The difference is in what a refusal leaves behind: nothing of the record, or
its header alone.
-/
namespace Unwinding

/-! ## Storing in two parts -/

theorem Region.overwrite_append (r : Region) (o : Nat) (bs cs : List UInt8) :
    (r.overwrite o bs).overwrite (o + bs.length) cs = r.overwrite o (bs ++ cs) := by
  have hbyte i : ((r.overwrite o bs).overwrite (o + bs.length) cs).byte i =
      (r.overwrite o (bs ++ cs)).byte i := by
    simp only [byte_overwrite, List.length_append]
    by_cases hbs : i < o + bs.length
    · rw [dif_neg (by omega)]
      by_cases hlow : o ≤ i
      · rw [dif_pos ⟨hlow, hbs⟩, dif_pos ⟨hlow, by omega⟩, List.getElem_append_left]
      · rw [dif_neg fun h => hlow h.1, dif_neg fun h => hlow h.1]
    · by_cases hcs : i < o + bs.length + cs.length
      · rw [dif_pos ⟨by omega, hcs⟩, dif_pos ⟨by omega, by omega⟩,
          List.getElem_append_right (by omega)]
        congr 1
        omega
      · rw [dif_neg fun h => hcs h.2, dif_neg fun h => hbs h.2, dif_neg (by omega)]
  exact congrArg (Region.mk r.base r.size) (funext hbyte)

namespace Memory
variable {m m' m₁ m₂ : Memory} {a : Address} {bs cs : List UInt8}

theorem overwrite_append (m : Memory) (base : Address) (o : Nat) (bs cs : List UInt8) :
    (m.overwrite base o bs).overwrite base (o + bs.length) cs = m.overwrite base o (bs ++ cs) := by
  simp only [overwrite, List.map_map, Memory.mk.injEq, and_true]
  refine List.map_congr_left fun r _ => ?_
  by_cases h : r.base = base
  · have hbase : (r.overwrite o bs).base = base := h
    simp only [Function.comp_apply, if_pos h, if_pos hbase, Region.overwrite_append]
  · simp only [Function.comp_apply, if_neg h]

/-- A run of bytes that can be stored at once can be stored in two parts, to the same effect. -/
theorem Sound.write_append {u : Unit} {d : UInt64} (h : m.Sound) (hd : d.toNat = bs.length)
    (hcs : 0 < cs.length) (hw : Memory.write a (bs ++ cs) m = .ok u m') :
    (a.offset d).toNat = a.toNat + d.toNat ∧ ∃ m₁, Memory.write a bs m = .ok () m₁ ∧
      Memory.write (a.offset d) cs m₁ = .ok () { m' with writes := m'.writes + 1 } := by
  obtain ⟨r, o, hl, rfl⟩ := write_ok_iff.1 hw
  obtain ⟨hf, hc, rfl⟩ := locate_ok hl
  rw [List.length_append] at hc
  have hr := List.mem_of_find?_eq_some hf
  have hoffset : (a.offset d).toNat = a.toNat + d.toNat := h.toNat_offset ⟨r, hr, hc⟩ (by omega)
  -- both parts are found in the region that was found for the whole
  have hfirst : m.locate a bs.length = .ok (r, a.toNat - r.base.toNat) := by
    have hoffset? : r.offset? a bs.length = some (a.toNat - r.base.toNat) :=
      Region.offset?_eq_some_iff.2 ⟨hc.part (Nat.le_refl _) (by omega), rfl⟩
    simp only [locate, hf, hoffset?]
  have hsecond : m.locate (a.offset d) cs.length =
      .ok (r, a.toNat - r.base.toNat + bs.length) := by
    have hlow := hc.1
    rw [h.locate_eq hr (hc.part (by omega) (by omega)) hcs, hoffset, hd]
    congr 2
    omega
  refine ⟨hoffset, _, write_ok_iff.2 ⟨r, _, hfirst, rfl⟩, write_ok_iff.2 ?_⟩
  refine ⟨r.stored r.base (a.toNat - r.base.toNat) bs, a.toNat - r.base.toNat + bs.length, ?_, ?_⟩
  · have hlocate : ({ m with writes := m.writes + 1 } : Memory).locate (a.offset d) cs.length =
        m.locate (a.offset d) cs.length := rfl
    rw [locate_overwrite, hlocate, hsecond]
    rfl
  · rw [Region.stored_base]
    exact (overwrite_append { m with writes := m.writes + 1 + 1 } _ _ bs cs).symm

theorem writePointer_ok_iff {l : Layout} {value : Address} {u : Unit} :
    writePointer l a value m = .ok u m' ↔
      ∃ bs, l.encodePointer value = .ok bs ∧ write a bs m = .ok u m' := by
  rw [writePointer_apply]
  cases l.encodePointer value <;> simp

theorem Overwritten.of_untouched {b : Nat} (h : m.Overwritten m₁ b bs) (hu : m₁.Untouched m₂) :
    m.Overwritten m₂ b bs := by
  have hbytes x : m₂.byte? x = m₁.byte? x := by rw [byte?, byte?, hu.regions]
  have hextents : m₂.extents = m₁.extents := by
    rw [Memory.extents, Memory.extents, hu.regions]
  exact ⟨h.inside, fun x => (hbytes x).trans (h.bytes x), hextents.trans h.extents,
    hu.next.trans h.next, hu.used.trans h.used, hu.limit.trans h.limit⟩

end Memory

namespace Record
variable {m m' m₁ m₂ : Memory} {l : Layout} {a b : Address} {r : Record} {f : Fault}

/-! ## A record and its fields -/

/-- A record is stored where its header fits a pointer and one region has room for both fields. -/
theorem exists_write_iff_room (hm : m.Sound) : (∃ m', r.write l a m = .ok a m') ↔
    r.header.toNat < l.pointerBound ∧ m.Holds a.toNat (size l) := by
  constructor
  · rintro ⟨m', hw⟩
    obtain ⟨-, bs, he, -⟩ := write_ok_iff.1 hw
    obtain ⟨header, hh, -⟩ := encode_ok_iff.1 he
    have hr := (Layout.encodePointer_ok_iff.1 hh).1
    exact ⟨hr, (exists_write_iff hm hr).1 ⟨m', hw⟩⟩
  · rintro ⟨hr, hroom⟩
    exact (exists_write_iff hm hr).2 hroom

/-- The fields of a record that can be stored can be stored one by one. -/
theorem fields_of_write (hm : m.Sound) (h : r.write l a m = .ok b m') :
    (a.offset (selectorOffset l)).toNat = a.toNat + (selectorOffset l).toNat ∧
      ∃ m₁, Memory.writePointer l a r.header m = .ok () m₁ ∧
        Memory.writeInt32 l (a.offset (selectorOffset l)) r.selector.code m₁ =
          .ok () { m' with writes := m'.writes + 1 } := by
  obtain ⟨-, bs, he, hw⟩ := write_ok_iff.1 h
  obtain ⟨header, hh, rfl⟩ := encode_ok_iff.1 he
  have hlen := Layout.length_of_encodePointer hh
  have hd : (selectorOffset l).toNat = header.length := by rw [toNat_selectorOffset, hlen]
  obtain ⟨hoffset, m₁, hfirst, hsecond⟩ := hm.write_append hd (by simp) hw
  exact ⟨hoffset, m₁, Memory.writePointer_ok_iff.2 ⟨header, hh, hfirst⟩, hsecond⟩

/-- Where the header can be stored but not the selector behind it, the header alone is what the
fields leave behind, and a record is refused. -/
theorem refused_of_fields (hm : m.Sound)
    (hp : Memory.writePointer l a r.header m = .ok () m₁)
    (hv : Memory.writeInt32 l (a.offset (selectorOffset l)) r.selector.code m₁ = .error f m₂) :
    (∃ header, l.encodePointer r.header = .ok header ∧ m.Overwritten m₂ a.toNat header) ∧
      ∃ f' m', r.write l a m = .error f' m' := by
  obtain ⟨header, hh, hw⟩ := Memory.writePointer_ok_iff.1 hp
  refine ⟨⟨header, hh, (hm.overwritten_of_write hw).of_untouched
    (Memory.untouched_of_write_error hv)⟩, ?_⟩
  cases h : r.write l a m with
  | error f' m' => exact ⟨f', m', rfl⟩
  | ok b m' =>
    obtain ⟨-, m₁', hp', hv'⟩ := fields_of_write hm h
    obtain rfl : m₁ = m₁' := by simpa using hp.symm.trans hp'
    cases hv.symm.trans hv'

/-- A record is stored in one piece wherever one region has room for it, and leaves the same memory
as its fields, stored one by one, with one store less; a record that is refused leaves the memory as
it was, also where the fields would have left the header there. -/
theorem write_agrees_with_fields_or_leaves_nothing (m : Memory) (l : Layout) (a : Address)
    (r : Record) (hm : m.Reachable) :
    let writeHeader := Memory.writePointer l a r.header
    let writeSelector := Memory.writeInt32 l (a.offset (selectorOffset l)) r.selector.code
    ((∃ m', r.write l a m = .ok a m') ↔
      r.header.toNat < l.pointerBound ∧ m.Holds a.toNat (size l)) ∧
    (∀ b m', r.write l a m = .ok b m' →
      b = a ∧ (a.offset (selectorOffset l)).toNat = a.toNat + (selectorOffset l).toNat ∧
      ∃ m₁, writeHeader m = .ok () m₁ ∧
        writeSelector m₁ = .ok () { m' with writes := m'.writes + 1 }) ∧
    (∀ f m', r.write l a m = .error f m' → m.Untouched m') ∧
    ∀ m₁ f m₂, writeHeader m = .ok () m₁ → writeSelector m₁ = .error f m₂ →
      (∃ header, l.encodePointer r.header = .ok header ∧ m.Overwritten m₂ a.toNat header) ∧
      ∃ f' m', r.write l a m = .error f' m' ∧ m.Untouched m' := by
  intro writeHeader writeSelector
  refine ⟨exists_write_iff_room hm.sound,
    fun b m' h => ⟨(write_ok_iff.1 h).1, fields_of_write hm.sound h⟩,
    fun f m' => untouched_of_write_error, fun m₁ f m₂ hp hv => ?_⟩
  obtain ⟨hheader, f', m', h⟩ := refused_of_fields hm.sound hp hv
  exact ⟨hheader, f', m', h, untouched_of_write_error h⟩

/-- A region with room for a whole record, and behind it one with room for a header alone. -/
theorem write_and_fields_with_and_without_room :
    let m := Action.final (Memory.alloc 8 (Action.final
      (Memory.alloc 12 (.new (.forWidth .bits64)))))
    let base := MemoryConfig.baseFor .bits64
    let r : Record := ⟨⟨0x9000⟩, .filter⟩
    let whole := Action.final (r.write {} base m)
    let short := base.offset 16
    let header := Action.final (Memory.writePointer {} short r.header m)
    let rest := Action.final (Memory.writeInt32 {} (short.offset 8) r.selector.code header)
    m.Reachable ∧ r.write {} base m = .ok base whole ∧
      (∃ m₁, Memory.writePointer {} base r.header m = .ok () m₁ ∧
        Memory.writeInt32 {} (base.offset 8) r.selector.code m₁ =
          .ok () { whole with writes := whole.writes + 1 }) ∧
      rest.read short 8 = .ok [0, 0x90, 0, 0, 0, 0, 0, 0] ∧
      ∃ f m', r.write {} short m = .error f m' ∧ m.Untouched m' := by
  intro m base r whole short header rest
  have hm : m.Reachable := .alloc 8 (.alloc 12 (.new (.forWidth .bits64)))
  have hwhole : r.write {} base m = .ok base whole := Action.eq_ok_of_result (by decide +kernel)
  obtain ⟨-, hsame, -, -⟩ := write_agrees_with_fields_or_leaves_nothing m {} base r hm
  obtain ⟨-, -, hfields⟩ := hsame base whole hwhole
  have hheader : Memory.writePointer {} short r.header m = .ok () header :=
    Action.eq_ok_of_result (by decide +kernel)
  have hrest : Memory.writeInt32 {} (short.offset 8) r.selector.code header =
      .error (.invalidPointer (short.offset 8) Memory.beyondBounds) rest :=
    Action.eq_error_of_result (by decide +kernel)
  obtain ⟨-, -, -, hrefused⟩ := write_agrees_with_fields_or_leaves_nothing m {} short r hm
  have hread : rest.read short 8 = .ok [0, 0x90, 0, 0, 0, 0, 0, 0] := by decide +kernel
  exact ⟨hm, hwhole, hfields, hread, (hrefused header _ rest hheader hrest).2⟩

end Record

end Unwinding
