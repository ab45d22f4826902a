import Unwinding.Proofs.Memory.Allocation
import Unwinding.Proofs.Memory.Contents

/-!
# Looking up a region

An access looks at one region only, the nearest that starts at or below its address, and a machine
computes the offset in words. Neither loses anything: the access is granted wherever some live region
has room for it, since no region reaches into the next one, and where a sum of words would wrap
around there is no such region.
-/
namespace Unwinding

/-- The difference of two words, unless it is negative. -/
def checkedSub? (a b : UInt64) : Option UInt64 := if b ≤ a then some (a - b) else none

/-- The sum of two words, unless it wraps around. -/
def checkedAdd? (a b : UInt64) : Option UInt64 :=
  if a.toNat + b.toNat < UInt64.size then some (a + b) else none

theorem checkedSub?_eq_some_iff {a b c : UInt64} :
    checkedSub? a b = some c ↔ a.toNat = b.toNat + c.toNat := by
  rw [checkedSub?]
  split
  · rename_i h
    have hle := UInt64.le_iff_toNat_le.1 h
    rw [Option.some.injEq, ← UInt64.toNat_inj, UInt64.toNat_sub_of_le _ _ h]
    omega
  · rename_i h
    have hlt := mt UInt64.le_iff_toNat_le.2 h
    simp only [reduceCtorEq, false_iff]
    omega

theorem checkedAdd?_eq_some_iff {a b c : UInt64} :
    checkedAdd? a b = some c ↔ c.toNat = a.toNat + b.toNat := by
  rw [checkedAdd?]
  split
  · rename_i h
    rw [Option.some.injEq, ← UInt64.toNat_inj, UInt64.toNat_add, Nat.mod_eq_of_lt h, eq_comm]
  · rename_i h
    have hc := c.toNat_lt_size
    simp only [reduceCtorEq, false_iff]
    omega

namespace Region

/-- The offset of an address in a region, computed in words. -/
def wordOffset? (r : Region) (a : Address) (length : UInt64) : Option UInt64 := do
  let offset ← checkedSub? a.word r.base.word
  let stop ← checkedAdd? offset length
  if stop.toNat ≤ r.size then some offset else none

/-- Where a word does not suffice for the end of a range, the range ends behind the region. -/
theorem wordOffset?_eq_some_iff {r : Region} {a : Address} {length o : UInt64}
    (hr : r.size < UInt64.size) :
    r.wordOffset? a length = some o ↔ r.offset? a length.toNat = some o.toNat := by
  simp only [wordOffset?, Option.bind_eq_bind, Option.bind_eq_some_iff, checkedSub?_eq_some_iff,
    checkedAdd?_eq_some_iff, offset?_eq_some_iff]
  constructor
  · rintro ⟨offset, hoffset, stop, hstop, h⟩
    split at h <;> cases h
    have hword : a.toNat = r.base.toNat + o.toNat := hoffset
    exact ⟨⟨by omega, by omega⟩, by omega⟩
  · rintro ⟨⟨hlow, hhigh⟩, ho⟩
    have hword : a.toNat = r.base.toNat + o.toNat := by omega
    have hsum : o.toNat + length.toNat < UInt64.size := by omega
    have hstop : (o + length).toNat = o.toNat + length.toNat := by
      rw [UInt64.toNat_add, Nat.mod_eq_of_lt hsum]
    exact ⟨o, hword, o + length, hstop, if_pos (by omega)⟩

end Region

namespace Memory

/-- Of the live regions that start at or below an address, the one that starts last. -/
structure Nearest (m : Memory) (a : Address) (r : Region) : Prop where
  mem : r ∈ m.regions
  below : r.base ≤ a
  last : ∀ s ∈ m.regions, s.base ≤ a → s.base ≤ r.base

variable {m : Memory} {r : Region} {a : Address} {n o : Nat}

theorem Sound.find?_le_eq_some_iff (h : m.Sound) :
    m.regions.find? (·.base ≤ a) = some r ↔ m.Nearest a r := by
  constructor
  · intro hf
    refine ⟨List.mem_of_find?_eq_some hf, by simpa using List.find?_some hf, fun s hs hsa => ?_⟩
    obtain ⟨t, -, ht, -, hst⟩ := h.find?_le hs hsa
    obtain rfl : t = r := Option.some.inj (ht.symm.trans hf)
    rcases hst with rfl | hst
    · exact Address.le_iff.2 (Nat.le_refl _)
    · exact Address.le_iff.2 (Nat.le_trans (Nat.le_of_lt s.stop_pos) hst)
  · intro hn
    obtain ⟨t, ht, hf, hta, htr⟩ := h.find?_le hn.mem hn.below
    rcases htr with rfl | hrt
    · exact hf
    · -- a region behind the nearest one would be nearer still
      have hle := Address.le_iff.1 (hn.last t ht hta)
      have hpos := r.stop_pos
      omega

theorem Sound.locate_ok_iff (h : m.Sound) : m.locate a n = .ok (r, o) ↔
    m.Nearest a r ∧ a.toNat = r.base.toNat + o ∧ o + n ≤ r.size := by
  constructor
  · intro hl
    obtain ⟨hf, ⟨hlow, hhigh⟩, rfl⟩ := locate_ok hl
    exact ⟨h.find?_le_eq_some_iff.1 hf, by omega, by omega⟩
  · rintro ⟨hn, ha, ho⟩
    have hoffset : r.offset? a n = some o :=
      Region.offset?_eq_some_iff.2 ⟨⟨by omega, by omega⟩, by omega⟩
    simp only [locate, h.find?_le_eq_some_iff.2 hn, hoffset]

theorem Sound.exists_read_iff (h : m.Sound) : (∃ bs, m.read a n = .ok bs) ↔ m.Holds a.toNat n := by
  rw [read_eq]
  cases hl : m.locate a n with
  | error f => simpa [Except.map] using (h.locate_error_iff.1 hl).1
  | ok x =>
    obtain ⟨hf, hc, -⟩ := locate_ok (r := x.1) (o := x.2) hl
    have hh : m.Holds a.toNat n := ⟨x.1, List.mem_of_find?_eq_some hf, hc⟩
    simpa [Except.map] using hh

theorem isValid_iff : m.isValid a = true ↔ ∃ bs, m.read a 1 = .ok bs := by
  rw [isValid, read_eq]
  cases m.locate a 1 <;> simp [Except.map, Except.isOk, Except.toBool]

/-- A range can be read where some live region has all of it, and written under the same condition,
although only the nearest region is looked at; the offset that is found there is the same in words,
and from it on the region has all the bytes that are asked for. -/
theorem accessible_iff_some_region_covers (c : MemoryConfig) (requests : List Request) (a : Address)
    (n : Nat) :
    let m := (new c).run requests
    ((∃ bs, m.read a n = .ok bs) ↔ ∃ r ∈ m.regions, r.Covers a.toNat n) ∧
    (∀ data, (∃ m', write a data m = .ok () m') ↔ ∃ r ∈ m.regions, r.Covers a.toNat data.length) ∧
    (m.isValid a = true ↔ ∃ bs, m.read a 1 = .ok bs) ∧
    (∀ r ∈ m.regions, r.base.toNat + r.size < UInt64.size ∧
      ∀ length o, r.wordOffset? a length = some o ↔ r.offset? a length.toNat = some o.toNat) ∧
    ∀ r o, m.locate a n = .ok (r, o) ↔
      m.Nearest a r ∧ a.toNat = r.base.toNat + o ∧ o + n ≤ r.bytes.length := by
  intro m
  have hm : m.Sound := (sound_new c).run
  refine ⟨hm.exists_read_iff, fun data => ?_, isValid_iff, fun r hr => ?_, fun r o => ?_⟩
  · exact exists_write_iff.trans hm.exists_read_iff
  · have hsize := hm.base_add_size_lt hr
    exact ⟨hsize, fun length o => Region.wordOffset?_eq_some_iff (by omega)⟩
  · rw [r.length_bytes]
    exact hm.locate_ok_iff

end Memory

end Unwinding
