import Unwinding.Proofs.Layout.Codec
import Unwinding.Proofs.Memory.Bytes
import Unwinding.Record

/-!
# Records in memory

A record is written as one run of bytes and read in two parts. Where the bytes stand, inside one live
region, the parts are found at the places that the reader looks at.
-/
namespace Unwinding

namespace Record
variable {m : Memory} {a : Address} {r : Record} {l : Layout} {bs : List UInt8}

theorem encode_ok_iff : r.encode l = .ok bs ↔
    ∃ header, l.encodePointer r.header = .ok header ∧ bs = header ++ l.encodeInt32 r.selector.code := by
  rw [encode]
  cases h : l.encodePointer r.header with
  | error f => simp [bind, Except.bind]
  | ok header => simp [bind, Except.bind, pure, Except.pure, eq_comm]

theorem length_of_encode (h : r.encode l = .ok bs) : bs.length = size l := by
  obtain ⟨header, hh, rfl⟩ := encode_ok_iff.1 h
  rw [List.length_append, Layout.length_of_encodePointer hh, Layout.length_encodeInt32, size]

theorem write_of_encode (he : r.encode l = .ok bs) (destination : Address) (m : Memory) :
    r.write l destination m =
      match Memory.write destination bs m with
      | .error f m' => .error f m'
      | .ok () m' => .ok destination m' := by
  obtain ⟨header, hh, rfl⟩ := encode_ok_iff.1 he
  have h := write_apply r l destination m
  rw [hh] at h
  exact h

theorem write_of_encode_error {f : Fault} (he : r.encode l = .error f) (destination : Address)
    (m : Memory) : r.write l destination m = .error f m := by
  rw [write, he]
  rfl

theorem write_ok_iff {b : Address} {m' : Memory} : r.write l a m = .ok b m' ↔
    b = a ∧ ∃ bs, r.encode l = .ok bs ∧ Memory.write a bs m = .ok () m' := by
  cases he : r.encode l with
  | error f => simp [write_of_encode_error he]
  | ok bs =>
    rw [write_of_encode he]
    cases hw : Memory.write a bs m with
    | error f m' => simp [hw]
    | ok u m' => simp [hw, eq_comm]

theorem write_error_iff {f : Fault} {m' : Memory} : r.write l a m = .error f m' ↔
    (r.encode l = .error f ∧ m = m') ∨
      ∃ bs, r.encode l = .ok bs ∧ Memory.write a bs m = .error f m' := by
  cases he : r.encode l with
  | error f => simp [write_of_encode_error he]
  | ok bs =>
    rw [write_of_encode he]
    cases hw : Memory.write a bs m with
    | error f m' => simp [hw]
    | ok u m' => simp [hw]

/-- A record that is refused leaves nothing behind, whether its header is too wide or the place too
short. -/
theorem untouched_of_write_error {f : Fault} {m' : Memory} (h : r.write l a m = .error f m') :
    m.Untouched m' := by
  rcases write_error_iff.1 h with ⟨-, rfl⟩ | ⟨bs, -, hw⟩
  · exact .refl m
  · exact Memory.untouched_of_write_error hw

theorem toNat_selectorOffset (l : Layout) : (selectorOffset l).toNat = l.pointerSize := by
  rcases l.pointerSize_cases with h | h <;> rw [selectorOffset, h] <;> rfl

/-- Two reads, one behind the other, find the record that was stored in one piece. -/
theorem read_of_stores (hm : m.Sound) (he : r.encode l = .ok bs) (hs : m.Stores a.toNat bs) :
    read m l a = .ok r := by
  obtain ⟨header, hh, rfl⟩ := encode_ok_iff.1 he
  have hlen := Layout.length_of_encodePointer hh
  have hoffset : (a.offset (selectorOffset l)).toNat = a.toNat + header.length := by
    rw [hm.toNat_offset hs.holds, toNat_selectorOffset, hlen]
    rw [toNat_selectorOffset, List.length_append, hlen]
    omega
  have hheader : m.Stores a.toNat header := by
    have h : m.Stores a.toNat ([] ++ header ++ l.encodeInt32 r.selector.code) := hs
    exact h.part
  have hselector : m.Stores (a.offset (selectorOffset l)).toNat (l.encodeInt32 r.selector.code) := by
    rw [← List.append_nil (header ++ _)] at hs
    rw [hoffset]
    exact hs.part
  have hp : m.readPointer l a = .ok r.header := by
    have hread := hm.read_of_stores hheader (by rw [hlen]; exact l.pointerSize_pos)
    rw [hlen] at hread
    rw [Memory.readPointer, hread]
    exact Layout.decodePointer_of_encodePointer hh
  have hv : m.readInt32 l (a.offset (selectorOffset l)) = .ok r.selector.code := by
    have hread := hm.read_of_stores hselector (by simp)
    rw [Layout.length_encodeInt32] at hread
    rw [Memory.readInt32, hread]
    exact Layout.decodeInt32_encodeInt32 l r.selector.code
  rw [read, hp, hv]
  rfl

end Record

end Unwinding
