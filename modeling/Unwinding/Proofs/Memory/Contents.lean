import Unwinding.Proofs.Memory.Bytes

/-!
# The contents of regions

To a client a memory is a collection of regions that have nothing to do with each other: `Contents`
gives the bytes of each under its base, and nothing of the order of the regions or of the address at
which the next one goes. Reads are answered from the contents. An operation that succeeds changes
the contents of one region and keeps those of all others, one that fails changes nothing at all.
-/
namespace Unwinding

/-- The bytes of each live region, under its base. -/
abbrev Contents := Address → Option (List UInt8)

namespace Contents

/-- What becomes of the bytes `bs` from address `b` on when `data` is stored at address `a`. -/
def patch (a : Nat) (data : List UInt8) (b : Nat) (bs : List UInt8) : List UInt8 :=
  bs.mapIdx fun i x => if a ≤ b + i then (data[b + i - a]?).getD x else x

/-- The `n` bytes from address `a` on belong to one region, and they are `bs`. -/
def Reads (c : Contents) (a n : Nat) (bs : List UInt8) : Prop :=
  ∃ base bytes, c base = some bytes ∧ base.toNat ≤ a ∧ a + n ≤ base.toNat + bytes.length ∧
    bs = (bytes.drop (a - base.toNat)).take n

end Contents

/-- All bytes of a region, in order. -/
def Region.bytes (r : Region) : List UInt8 := r.slice 0 r.size

/-- For each base the bytes of the region that starts there. -/
def Memory.contents (m : Memory) : Contents := fun a =>
  (m.regions.find? (·.base = a)).map Region.bytes

/-! ## Slices of a region -/

namespace Region
variable {r : Region} {a : Address} {n o : Nat}

@[simp] theorem length_slice (r : Region) (o n : Nat) : (r.slice o n).length = n := by simp [slice]

@[simp] theorem length_bytes (r : Region) : r.bytes.length = r.size := length_slice r 0 r.size

theorem slice_eq_take_drop (h : o + n ≤ r.size) : r.slice o n = (r.bytes.drop o).take n := by
  apply List.ext_getElem
  · simp
    omega
  · intro i hi hi'
    simp [slice, bytes]

theorem slice_zeroed (base : Address) (size o n : Nat) :
    (zeroed base size).slice o n = List.replicate n 0 := by
  apply List.ext_getElem <;> simp [slice, zeroed]

@[simp] theorem stored_size (r : Region) (base : Address) (o : Nat) (data : List UInt8) :
    (r.stored base o data).size = r.size := by
  rw [stored]
  split <;> rfl

theorem offset?_stored (r : Region) (base : Address) (o : Nat) (data : List UInt8) :
    (r.stored base o data).offset? a n = r.offset? a n := by
  rw [stored]
  split <;> rfl

end Region

namespace Memory
variable {m m' : Memory} {r s : Region} {a b : Address} {n : Nat} {bs data : List UInt8}

/-! ## Reads -/

theorem Sound.eq_of_base (h : m.Sound) (hr : r ∈ m.regions) (hs : s ∈ m.regions)
    (hb : r.base = s.base) : r = s := by
  have hrpos := r.stop_pos
  have hspos := s.stop_pos
  rcases h.apart hr hs with rfl | h | h
  · rfl
  · rw [← hb] at h
    omega
  · rw [hb] at h
    omega

theorem Sound.contents_eq_some_iff (h : m.Sound) :
    m.contents a = some bs ↔ ∃ r ∈ m.regions, r.base = a ∧ r.bytes = bs := by
  rw [contents, Option.map_eq_some_iff]
  constructor
  · rintro ⟨r, hr, hb⟩
    exact ⟨r, List.mem_of_find?_eq_some hr, by simpa using List.find?_some hr, hb⟩
  · rintro ⟨r, hr, rfl, hb⟩
    cases hf : m.regions.find? (·.base = r.base) with
    | none => exact absurd (List.find?_eq_none.1 hf r hr) (by simp)
    | some s =>
      have hs : s.base = r.base := by simpa using List.find?_some hf
      exact ⟨s, rfl, by rw [h.eq_of_base (List.mem_of_find?_eq_some hf) hr hs, hb]⟩

theorem read_eq (m : Memory) (a : Address) (n : Nat) :
    m.read a n = (m.locate a n).map fun p => p.1.slice p.2 n := by
  rw [read]
  cases m.locate a n <;> rfl

theorem Sound.read_ok_iff (h : m.Sound) :
    m.read a n = .ok bs ↔ bs.length = n ∧ m.Stores a.toNat bs := by
  rw [read_eq]
  constructor
  · intro hb
    cases hl : m.locate a n with
    | error f => simp [hl, Except.map] at hb
    | ok p =>
      obtain ⟨r, o⟩ := p
      obtain rfl : r.slice o n = bs := by simpa [hl, Except.map] using hb
      obtain ⟨hf, hc, rfl⟩ := locate_ok hl
      have hlen := r.length_slice (a.toNat - r.base.toNat) n
      refine ⟨hlen, r, List.mem_of_find?_eq_some hf, ?_, ?_⟩ <;> rw [hlen]
      exact hc
  · rintro ⟨rfl, r, hr, hc, hb⟩
    obtain ⟨s, -, -, hl, hsr⟩ := h.exists_locate hr hc
    rw [hl]
    rcases Nat.eq_zero_or_pos bs.length with hn | hn
    · obtain rfl := List.length_eq_zero_iff.1 hn
      rfl
    · obtain rfl := hsr hn
      exact congrArg Except.ok hb

/-- Reads look at nothing but the contents. -/
theorem Sound.read_ok_iff_reads (h : m.Sound) :
    m.read a n = .ok bs ↔ m.contents.Reads a.toNat n bs := by
  rw [h.read_ok_iff]
  constructor
  · rintro ⟨rfl, r, hr, ⟨hlow, hhigh⟩, hb⟩
    refine ⟨r.base, r.bytes, h.contents_eq_some_iff.2 ⟨r, hr, rfl, rfl⟩, hlow, ?_, ?_⟩
    · rwa [r.length_bytes]
    · rw [← Region.slice_eq_take_drop (by omega), hb]
  · rintro ⟨base, bytes, hc, hlow, hhigh, rfl⟩
    obtain ⟨r, hr, rfl, rfl⟩ := h.contents_eq_some_iff.1 hc
    rw [r.length_bytes] at hhigh
    rw [← Region.slice_eq_take_drop (by omega)]
    refine ⟨r.length_slice _ _, r, hr, ?_, ?_⟩ <;> rw [r.length_slice]
    exact ⟨hlow, hhigh⟩

/-! ## Storing -/

/-- A store patches each region, wherever the slice of it lies that is looked at. -/
theorem Sound.slice_stored (h : m.Sound) (hr : r ∈ m.regions) (hc : r.Covers a.toNat data.length)
    (hs : s ∈ m.regions) (hcs : s.Covers b.toNat n) :
    (s.stored r.base (a.toNat - r.base.toNat) data).slice (b.toNat - s.base.toNat) n =
      Contents.patch a.toNat data b.toNat (s.slice (b.toNat - s.base.toNat) n) := by
  apply List.ext_getElem
  · simp [Contents.patch]
  · intro i hi _
    rw [Region.length_slice] at hi
    have hx : s.Covers (b.toNat + i) 1 := hcs.part (by omega) (by omega)
    have hbyte := byte_of_write hc hx
    have hlow := hcs.1
    have hidx : b.toNat + i - s.base.toNat = b.toNat - s.base.toNat + i := by omega
    rw [hidx] at hbyte
    simp only [Region.slice, List.getElem_map, List.getElem_range, Contents.patch,
      List.getElem_mapIdx, hbyte]
    by_cases hin : a.toNat ≤ b.toNat + i ∧ b.toNat + i < a.toNat + data.length
    · have hrs : s = r := h.eq_of_covers hs hr hx (hc.part hin.1 (by omega))
      rw [dif_pos ⟨congrArg Region.base hrs, hin⟩, if_pos hin.1,
        List.getElem?_eq_getElem (by omega), Option.getD_some]
    · rw [dif_neg fun hn => hin hn.2]
      split
      · rw [List.getElem?_eq_none (by omega), Option.getD_none]
      · rfl

/-- Looking for a region by its base does not see what is stored in it. -/
private theorem find?_overwrite (m : Memory) (p : Address → Bool) (base : Address) (o : Nat)
    (data : List UInt8) : (m.overwrite base o data).regions.find? (fun r => p r.base) =
      (m.regions.find? fun r => p r.base).map fun r => r.stored base o data := by
  have hmap : (m.overwrite base o data).regions = m.regions.map fun r => r.stored base o data := rfl
  simp only [hmap, List.find?_map, Function.comp_def, Region.stored_base]

theorem locate_overwrite (m : Memory) (base : Address) (o : Nat) (data : List UInt8) :
    (m.overwrite base o data).locate a n =
      (m.locate a n).map fun p => (p.1.stored base o data, p.2) := by
  have hf := m.find?_overwrite (fun b => decide (b ≤ a)) base o data
  rw [locate, locate, hf]
  cases m.regions.find? fun r => decide (r.base ≤ a) with
  | none => rfl
  | some r =>
    simp only [Option.map_some, Region.offset?_stored]
    cases r.offset? a n <;> rfl

/-- What a read finds after a store, and that it fails as before where it fails. -/
theorem Sound.read_write (h : m.Sound) (hw : Memory.write a data m = .ok () m') (b : Address)
    (n : Nat) :
    m'.read b n = (m.read b n).map (Contents.patch a.toNat data b.toNat) := by
  obtain ⟨r, o, hl, rfl⟩ := write_ok_iff.1 hw
  obtain ⟨hf, hc, rfl⟩ := locate_ok hl
  have hr := List.mem_of_find?_eq_some hf
  have hlocate : ({ m with writes := m.writes + 1 } : Memory).locate b n = m.locate b n := rfl
  rw [read_eq, read_eq, locate_overwrite, hlocate]
  cases hb : m.locate b n with
  | error f => rfl
  | ok p =>
    obtain ⟨s, k⟩ := p
    obtain ⟨hs, hcs, rfl⟩ := locate_ok hb
    exact congrArg Except.ok (h.slice_stored hr hc (List.mem_of_find?_eq_some hs) hcs)

theorem Sound.contents_write (h : m.Sound) (hw : Memory.write a data m = .ok () m')
    (base : Address) :
    m'.contents base = (m.contents base).map (Contents.patch a.toNat data base.toNat) := by
  obtain ⟨r, o, hl, rfl⟩ := write_ok_iff.1 hw
  obtain ⟨hf, hc, rfl⟩ := locate_ok hl
  have hr := List.mem_of_find?_eq_some hf
  have hfind := ({ m with writes := m.writes + 1 } : Memory).find?_overwrite
    (fun b => decide (b = base)) r.base (a.toNat - r.base.toNat) data
  rw [contents, hfind, contents]
  cases hs : m.regions.find? fun r => decide (r.base = base) with
  | none => rfl
  | some s =>
    have hb : s.base = base := by simpa using List.find?_some hs
    subst hb
    have hbytes := h.slice_stored hr hc (List.mem_of_find?_eq_some hs)
      (show s.Covers s.base.toNat s.size from ⟨Nat.le_refl _, Nat.le_refl _⟩)
    rw [Nat.sub_self] at hbytes
    simp only [Option.map_some, Region.bytes, Region.stored_size]
    exact congrArg some hbytes

/-! ## Allocating and freeing -/

theorem Sound.contents_alloc {size : UInt64} (h : m.Sound) (ha : Memory.alloc size m = .ok a m') :
    m.contents a = none ∧
      m'.contents = Function.update m.contents a (some (List.replicate size.toNat 0)) := by
  obtain ⟨-, -, rfl, rfl⟩ := Memory.alloc_ok_iff.1 ha
  constructor
  · rw [contents, Option.map_eq_none_iff, List.find?_eq_none]
    intro r hr hb
    have hstop := r.stop_pos
    have hnext := h.below r hr
    have hb : r.base = m.next := by simpa using hb
    rw [hb] at hstop
    omega
  · funext base
    by_cases hb : base = m.next
    · subst hb
      have hbytes : (Region.zeroed m.next size.toNat).bytes = List.replicate size.toNat 0 :=
        Region.slice_zeroed ..
      rw [Function.update_self, ← hbytes]
      simp [contents, Region.zeroed]
    · have hne : m.next ≠ base := Ne.symm hb
      rw [Function.update_of_ne hb]
      simp [contents, Region.zeroed, hne]

/-- Nothing shows in a new region of what was stored at any time before. -/
theorem Sound.read_alloc {size : UInt64} (h : m.Sound) (ha : Memory.alloc size m = .ok a m')
    (hlow : a.toNat ≤ b.toNat) (hhigh : b.toNat + n ≤ a.toNat + size.toNat) :
    m'.read b n = .ok (List.replicate n 0) := by
  obtain ⟨-, hc⟩ := h.contents_alloc ha
  rw [(h.alloc ha).read_ok_iff_reads, hc]
  refine ⟨a, _, Function.update_self .., hlow, by simpa using hhigh, ?_⟩
  rw [List.drop_replicate, List.take_replicate]
  congr 1
  omega

theorem exists_free_iff : (∃ m', free a m = .ok () m') ↔ m.contents a ≠ none := by
  rw [free_apply, contents]
  cases m.regions.find? (·.base = a) <;> simp

theorem contents_free (hf : free a m = .ok () m') :
    m'.contents = Function.update m.contents a none := by
  obtain ⟨r, hr, rfl⟩ := free_ok_iff.1 hf
  funext base
  by_cases hb : base = a
  · subst hb
    rw [Function.update_self]
    simp [contents, List.find?_filter]
  · rw [Function.update_of_ne hb]
    simp only [contents, List.find?_filter]
    congr 2
    funext r
    by_cases hr : r.base = base <;> simp [hr, hb]

/-! ## The store -/

/-- A typed store that fails has failed to encode its value, or to store the bytes. -/
theorem untouched_of_writePointer_error {l : Layout} {value : Address} {f : Fault}
    (h : writePointer l a value m = .error f m') : m.Untouched m' := by
  rw [writePointer_apply] at h
  split at h
  · cases h
    exact .refl m
  · exact untouched_of_write_error h

theorem exists_write_iff :
    (∃ m', write a data m = .ok () m') ↔ ∃ bs, m.read a data.length = .ok bs := by
  rw [write_apply, read_eq]
  cases m.locate a data.length with
  | error f => simp [Except.map]
  | ok p => simp [Except.map]

/-- A memory behaves as the collection of its regions, each with its own bytes. -/
theorem refines_contents (m : Memory) (hm : m.Reachable) :
    (∀ a n bs, m.read a n = .ok bs ↔ m.contents.Reads a.toNat n bs) ∧
    (∀ a data, (∃ m', write a data m = .ok () m') ↔ ∃ bs, m.contents.Reads a.toNat data.length bs) ∧
    (∀ a data m', write a data m = .ok () m' →
      (∀ b n, m'.read b n = (m.read b n).map (Contents.patch a.toNat data b.toNat)) ∧
      ∀ base, m'.contents base = (m.contents base).map (Contents.patch a.toNat data base.toNat)) ∧
    (∀ size a m', alloc size m = .ok a m' → m.contents a = none ∧
      m'.contents = Function.update m.contents a (some (List.replicate size.toNat 0)) ∧
      ∀ b n, a.toNat ≤ b.toNat → b.toNat + n ≤ a.toNat + size.toNat →
        m'.read b n = .ok (List.replicate n 0)) ∧
    (∀ a, (∃ m', free a m = .ok () m') ↔ m.contents a ≠ none) ∧
    (∀ a m', free a m = .ok () m' → m'.contents = Function.update m.contents a none) ∧
    (∀ size f m', alloc size m = .error f m' → m.Untouched m') ∧
    (∀ a f m', free a m = .error f m' → m.Untouched m') ∧
    (∀ a data f m', write a data m = .error f m' → m.Untouched m') ∧
    (∀ l a value f m', writePointer l a value m = .error f m' → m.Untouched m') ∧
    ∀ l a value f m', writeInt32 l a value m = .error f m' → m.Untouched m' := by
  have h := hm.sound
  have hread a n bs : m.read a n = .ok bs ↔ m.contents.Reads a.toNat n bs := h.read_ok_iff_reads
  refine ⟨hread, fun a data => ?_, fun a data m' hw => ⟨h.read_write hw, h.contents_write hw⟩,
    fun size a m' ha => ?_, fun a => exists_free_iff, fun a m' => contents_free,
    fun size f m' ha => ?_, fun a f m' hf => ?_, fun a data f m' => untouched_of_write_error,
    fun l a value f m' => untouched_of_writePointer_error,
    fun l a value f m' => untouched_of_write_error⟩
  · simp only [exists_write_iff, hread]
  · obtain ⟨hnone, hc⟩ := h.contents_alloc ha
    exact ⟨hnone, hc, fun b n => h.read_alloc ha⟩
  · obtain rfl := final_alloc_of_error ha
    exact .refl _
  · obtain rfl := final_free_of_error hf
    exact .refl _

/-- A region is filled up to its end, where another begins. -/
theorem refines_contents_between_regions :
    let m := Action.final (alloc 16 (Action.final (alloc 16 (.new ⟨100, ⟨0x1000⟩⟩))))
    let m' := Action.final (write ⟨0x100C⟩ [1, 2, 3, 4] m)
    m.Reachable ∧ write ⟨0x100C⟩ [1, 2, 3, 4] m = .ok () m' ∧
      m'.read ⟨0x100A⟩ 6 = .ok [0, 0, 1, 2, 3, 4] ∧ m'.read ⟨0x1010⟩ 0 = .ok [] ∧
      m'.contents ⟨0x1010⟩ = m.contents ⟨0x1010⟩ := by
  intro m m'
  have hm : m.Reachable := .alloc 16 (.alloc 16 (.new ⟨100, ⟨0x1000⟩⟩))
  have hw : write ⟨0x100C⟩ [1, 2, 3, 4] m = .ok () m' := rfl
  obtain ⟨-, -, hwrite, -⟩ := refines_contents m hm
  obtain ⟨hread, hcontents⟩ := hwrite _ _ _ hw
  refine ⟨hm, hw, ?_, ?_, ?_⟩
  · rw [hread]
    decide
  · rw [hread]
    decide
  · rw [hcontents]
    decide

end Memory

end Unwinding
