import Mathlib
import Unwinding.Proofs.Memory.Lookup
import Unwinding.Proofs.Record.Encoding

/-!
# Where a record can be

A record is written in one piece, so all of it has to lie inside one live region. It is read field by
field, and the fields may lie in different regions. In a sound memory there is one way in which they
can: one region ends behind the header, and the next begins right there with the selector.
-/
namespace Unwinding

namespace Memory

/-- The `n` bytes from `a` on are the end of one live region, and the `k` bytes behind them are the
beginning of another. -/
def Straddles (m : Memory) (a n k : Nat) : Prop :=
  ∃ r ∈ m.regions, ∃ s ∈ m.regions,
    r.base.toNat ≤ a ∧ r.base.toNat + r.size = a + n ∧ s.base.toNat = a + n ∧ k ≤ s.size

variable {m : Memory} {a : Address} {l : Layout} {x n k : Nat}

theorem Holds.part {y j : Nat} (h : m.Holds x n) (hx : x ≤ y) (hj : y + j ≤ x + n) :
    m.Holds y j := by
  obtain ⟨r, hr, hc⟩ := h
  exact ⟨r, hr, hc.part hx hj⟩

/-- Two ranges, one right behind the other, lie in one region or straddle two. -/
theorem Sound.holds_and_holds_iff (h : m.Sound) (hn : 0 < n) :
    m.Holds x n ∧ m.Holds (x + n) k ↔ m.Holds x (n + k) ∨ m.Straddles x n k := by
  constructor
  · rintro ⟨⟨r, hr, hrlow, hrhigh⟩, s, hs, hslow, hshigh⟩
    have hrstop := r.size_le_stop
    have hsstop := s.size_le_stop
    rcases h.apart hr hs with rfl | hrs | hsr
    · exact .inl ⟨r, hr, hrlow, by omega⟩
    · exact .inr ⟨r, hr, s, hs, hrlow, by omega, by omega, by omega⟩
    · omega
  · rintro (h | ⟨r, hr, s, hs, hlow, hend, hbase, hk⟩)
    · exact ⟨h.part (Nat.le_refl x) (by omega), h.part (by omega) (by omega)⟩
    · exact ⟨⟨r, hr, hlow, by omega⟩, s, hs, by omega, by omega⟩

theorem Sound.not_holds_of_straddles (h : m.Sound) (hn : 0 < n) (hk : 0 < k)
    (hs : m.Straddles x n k) : ¬ m.Holds x (n + k) := by
  rintro ⟨t, ht, htlow, hthigh⟩
  obtain ⟨r, hr, s, hs, hlow, hend, hbase, hsize⟩ := hs
  -- the region that holds both ranges would be the first and the second one
  obtain rfl : t = r := h.eq_of_covers (x := x) ht hr ⟨htlow, by omega⟩ ⟨hlow, by omega⟩
  omega

/-! ## Reading a field -/

/-- A decoder that takes every run of the length that is read refuses nothing. -/
theorem Sound.exists_decoded_iff {α : Type} {decode : List UInt8 → Except Fault α} (h : m.Sound)
    (hd : ∀ bs, bs.length = n → ∃ v, decode bs = .ok v) :
    (∃ v, (m.read a n >>= decode) = .ok v) ↔ m.Holds a.toNat n := by
  rw [← h.exists_read_iff]
  cases hb : m.read a n with
  | error f => simp [bind, Except.bind]
  | ok bs =>
    obtain ⟨v, hv⟩ := hd bs (h.read_ok_iff.1 hb).1
    simp [bind, Except.bind, hv]

theorem Sound.exists_readPointer_iff (h : m.Sound) :
    (∃ v, m.readPointer l a = .ok v) ↔ m.Holds a.toNat l.pointerSize :=
  h.exists_decoded_iff fun _ hb => ⟨_, Layout.decodePointer_ok_iff.2 ⟨hb, rfl⟩⟩

theorem Sound.exists_readInt32_iff (h : m.Sound) :
    (∃ v, m.readInt32 l a = .ok v) ↔ m.Holds a.toNat 4 :=
  h.exists_decoded_iff fun _ hb => ⟨_, Layout.decodeInt32_ok_iff.2 ⟨hb, rfl⟩⟩

end Memory

namespace Record
variable {m : Memory} {l : Layout} {a : Address} {r : Record}

theorem exists_read_iff_fields : (∃ v, read m l a = .ok v) ↔
    (∃ header, m.readPointer l a = .ok header) ∧
      ∃ code, m.readInt32 l (a.offset (selectorOffset l)) = .ok code := by
  rw [read]
  cases m.readPointer l a with
  | error f => simp [bind, Except.bind]
  | ok header =>
    cases m.readInt32 l (a.offset (selectorOffset l)) with
    | error f => simp [bind, Except.bind]
    | ok code => simp [bind, Except.bind, pure, Except.pure]

theorem exists_read_iff (hm : m.Sound) : (∃ v, read m l a = .ok v) ↔
    m.Holds a.toNat (size l) ∨ m.Straddles a.toNat l.pointerSize 4 := by
  rw [exists_read_iff_fields, hm.exists_readPointer_iff, hm.exists_readInt32_iff, size,
    ← hm.holds_and_holds_iff l.pointerSize_pos]
  refine and_congr_right fun hh => ?_
  have hoffset := hm.toNat_offset hh (Nat.le_of_eq (toNat_selectorOffset l))
  rw [hoffset, toNat_selectorOffset]

theorem exists_write_iff (hm : m.Sound) (hr : r.header.toNat < l.pointerBound) :
    (∃ m', r.write l a m = .ok a m') ↔ m.Holds a.toNat (size l) := by
  have he := encode_ok_iff.2 ⟨_, Layout.encodePointer_ok_iff.2 ⟨hr, rfl⟩, rfl⟩
  rw [write_of_encode he, ← length_of_encode he, ← hm.exists_read_iff, ← Memory.exists_write_iff]
  cases Memory.write a _ m with
  | error f m' => simp
  | ok u m' => simp

/-- A record can be written where one live region has room for all of it. It can be read there, and
besides where it straddles two regions. -/
theorem readable_iff_writable_or_straddles (m : Memory) (l : Layout) (a : Address) (r : Record)
    (hm : m.Reachable) (hr : r.header.toNat < l.pointerBound) :
    ((∃ m', r.write l a m = .ok a m') ↔ m.Holds a.toNat (size l)) ∧
    ((∃ v, read m l a = .ok v) ↔
      (∃ m', r.write l a m = .ok a m') ∨ m.Straddles a.toNat l.pointerSize 4) ∧
    (m.Straddles a.toNat l.pointerSize 4 → ∀ m', r.write l a m ≠ .ok a m') := by
  have hwrite := exists_write_iff (a := a) hm.sound hr
  refine ⟨hwrite, ?_, fun hs m' hw => ?_⟩
  · rw [hwrite]
    exact exists_read_iff hm.sound
  · exact hm.sound.not_holds_of_straddles l.pointerSize_pos (by decide) hs (hwrite.1 ⟨m', hw⟩)

/-- Two regions of sixteen bytes side by side: there is room at the base of the first. -/
theorem readable_at_base_and_across_regions :
    let m := Action.final (Memory.alloc 16 (Action.final
      (Memory.alloc 16 (.new (.forWidth .bits64)))))
    let base := MemoryConfig.baseFor .bits64
    let r : Record := ⟨⟨0x9000⟩, ⟨1⟩⟩
    m.Reachable ∧ r.header.toNat < Layout.pointerBound {} ∧ (∃ m', r.write {} base m = .ok base m') ∧
      (∃ v, read m {} base = .ok v) ∧ ∃ v, read m {} (base.offset 8) = .ok v := by
  intro m base r
  have hm : m.Reachable := .alloc 16 (.alloc 16 (.new (.forWidth .bits64)))
  have hr : r.header.toNat < Layout.pointerBound {} := by decide
  obtain ⟨hbase, hread, -⟩ := readable_iff_writable_or_straddles m {} base r hm hr
  obtain ⟨-, hacross, -⟩ := readable_iff_writable_or_straddles m {} (base.offset 8) r hm hr
  have hw : ∃ m', r.write {} base m = .ok base m' := by
    rw [hbase]
    change ∃ s ∈ m.regions, s.Covers _ _
    decide +kernel
  have hs : m.Straddles (base.offset 8).toNat (Layout.pointerSize {}) 4 := by
    unfold Memory.Straddles
    decide +kernel
  exact ⟨hm, hr, hw, hread.2 (.inl hw), hacross.2 (.inr hs)⟩

/-- At the last eight bytes of the first of two regions a record can be read and none be written. -/
theorem read_where_write_is_refused :
    let m := Action.final (Memory.alloc 16 (Action.final
      (Memory.alloc 16 (.new (.forWidth .bits64)))))
    let a := (MemoryConfig.baseFor .bits64).offset 8
    let r : Record := ⟨⟨0x9000⟩, ⟨1⟩⟩
    m.Reachable ∧ r.header.toNat < Layout.pointerBound {} ∧ read m {} a = .ok ⟨.null, .none⟩ ∧
      (∀ m', r.write {} a m ≠ .ok a m') ∧ ¬ m.Holds a.toNat (size {}) := by
  intro m a r
  have hm : m.Reachable := .alloc 16 (.alloc 16 (.new (.forWidth .bits64)))
  have hr : r.header.toNat < Layout.pointerBound {} := by decide
  have hn : ¬ m.Holds a.toNat (size {}) := by
    change ¬ ∃ s ∈ m.regions, s.Covers _ _
    decide +kernel
  refine ⟨hm, hr, by cbv, fun m' hw => hn ?_, hn⟩
  exact (exists_write_iff hm.sound hr).1 ⟨m', hw⟩

end Record

end Unwinding
