import Unwinding.Proofs.Memory.Soundness

/-!
# The bytes of a memory

A sound memory is a partial map from addresses to bytes: `Memory.byte?` does not depend on the order
of the regions. Storing changes the map on the range that is stored and nowhere else, and reading
reads it. `Memory.Stores` says that a run of bytes stands at an address, inside one live region; it
outlasts each operation that is not on that range or on that region.
-/
namespace Unwinding

namespace Region

theorem slice_eq_iff {r : Region} {o : Nat} {bs : List UInt8} :
    r.slice o bs.length = bs ↔ ∀ i, (h : i < bs.length) → r.byte (o + i) = bs[i] := by
  constructor
  · intro h i hi
    have hg : (r.slice o bs.length)[i]? = bs[i]? := by rw [h]
    simpa [slice, hi] using hg
  · intro h
    apply List.ext_getElem
    · simp [slice]
    · intro i hi hb
      simpa [slice] using h i hb

theorem byte_overwrite (r : Region) (o : Nat) (data : List UInt8) (i : Nat) :
    (r.overwrite o data).byte i =
      if h : o ≤ i ∧ i < o + data.length then data[i - o] else r.byte i := by
  simp only [overwrite]
  by_cases ho : i < o
  · have hn : ¬ (o ≤ i ∧ i < o + data.length) := by omega
    simp [ho, hn]
  · by_cases hi : i < o + data.length
    · have hlt : i - o < data.length := by omega
      have hy : o ≤ i ∧ i < o + data.length := ⟨by omega, hi⟩
      simp [ho, hy, List.getElem?_eq_getElem hlt]
    · have hn : ¬ (o ≤ i ∧ i < o + data.length) := by omega
      simp [ho, hn, List.getElem?_eq_none (show data.length ≤ i - o by omega)]

/-- What becomes of a region when bytes are stored in the region at `base`. -/
def stored (r : Region) (base : Address) (o : Nat) (data : List UInt8) : Region :=
  if r.base = base then r.overwrite o data else r

@[simp] theorem stored_base (r : Region) (base : Address) (o : Nat) (data : List UInt8) :
    (r.stored base o data).base = r.base := by
  rw [stored]
  split <;> rfl

@[simp] theorem covers_stored {r : Region} {base : Address} {o : Nat} {data : List UInt8} {a n : Nat} :
    (r.stored base o data).Covers a n ↔ r.Covers a n := by
  rw [stored]
  split <;> rfl

theorem byte_stored (r : Region) (base : Address) (o : Nat) (data : List UInt8) (i : Nat) :
    (r.stored base o data).byte i =
      if h : r.base = base ∧ o ≤ i ∧ i < o + data.length then data[i - o] else r.byte i := by
  rw [stored]
  by_cases hb : r.base = base
  · simp [hb, byte_overwrite]
  · simp [hb]

end Region

namespace Memory

/-- All addresses from `a` to `a + n` lie inside one live region. -/
def Holds (m : Memory) (a n : Nat) : Prop := ∃ r ∈ m.regions, r.Covers a n

/-- The byte at an address, if it is one of a live region. -/
def byte? (m : Memory) (x : Nat) : Option UInt8 :=
  (m.regions.find? fun r => r.Covers x 1).map fun r => r.byte (x - r.base.toNat)

/-- The bytes `bs` stand at address `a`. -/
def Stores (m : Memory) (a : Nat) (bs : List UInt8) : Prop :=
  ∃ r ∈ m.regions, r.Covers a bs.length ∧ r.slice (a - r.base.toNat) bs.length = bs

/-- Two memories that differ in the count of stores at most. -/
structure Untouched (m m' : Memory) : Prop where
  regions : m'.regions = m.regions
  next : m'.next = m.next
  used : m'.used = m.used
  limit : m'.limit = m.limit

/-- Two memories that differ in the count of stores at most, and in the bytes from `a` on: there,
inside one live region, the second has `bs`. -/
structure Overwritten (m m' : Memory) (a : Nat) (bs : List UInt8) : Prop where
  inside : m.Holds a bs.length
  bytes : ∀ x, m'.byte? x = if a ≤ x ∧ x < a + bs.length then bs[x - a]? else m.byte? x
  extents : m'.extents = m.extents
  next : m'.next = m.next
  used : m'.used = m.used
  limit : m'.limit = m.limit

/-- No address belongs to both ranges. -/
def Apart (a n b k : Nat) : Prop := ∀ x, a ≤ x → x < a + n → b ≤ x → x < b + k → False

variable {m m' : Memory} {r s : Region} {a : Address} {n x : Nat}

theorem Untouched.refl (m : Memory) : m.Untouched m := ⟨rfl, rfl, rfl, rfl⟩

theorem untouched_of_write_error {data : List UInt8} {f : Fault}
    (h : Memory.write a data m = .error f m') : m.Untouched m' := by
  obtain rfl := final_write_of_error h
  exact ⟨rfl, rfl, rfl, rfl⟩

theorem Sound.of_untouched (h : m.Sound) (hu : m.Untouched m') : m'.Sound :=
  h.of_extents (by rw [extents, extents, hu.regions]) hu.next hu.used hu.limit

/-! ## At most one region holds an address -/

theorem Sound.apart (h : m.Sound) (hr : r ∈ m.regions) (hs : s ∈ m.regions) :
    r = s ∨ r.stop ≤ s.base.toNat ∨ s.stop ≤ r.base.toNat := by
  refine List.Pairwise.forall_of_forall_of_flip
    (R := fun r s => r = s ∨ r.stop ≤ s.base.toNat ∨ s.stop ≤ r.base.toNat) ?_ ?_ ?_ hr hs
  · exact fun _ _ => .inl rfl
  · exact h.ordered.imp fun h => .inr (.inr h)
  · exact h.ordered.imp fun h => .inr (.inl h)

theorem Sound.eq_of_covers (h : m.Sound) (hr : r ∈ m.regions) (hs : s ∈ m.regions)
    (hrx : r.Covers x 1) (hsx : s.Covers x 1) : r = s := by
  have hrs := r.size_le_stop
  have hss := s.size_le_stop
  obtain ⟨hrlow, hrhigh⟩ := hrx
  obtain ⟨hslow, hshigh⟩ := hsx
  rcases h.apart hr hs with rfl | h | h
  · rfl
  · omega
  · omega

theorem Sound.byte?_of_mem (h : m.Sound) (hr : r ∈ m.regions) (hx : r.Covers x 1) :
    m.byte? x = some (r.byte (x - r.base.toNat)) := by
  rw [byte?]
  cases hf : m.regions.find? fun r => r.Covers x 1 with
  | none => exact absurd hx (by simpa using List.find?_eq_none.1 hf r hr)
  | some s =>
    have hs : s.Covers x 1 := by simpa using List.find?_some hf
    rw [h.eq_of_covers (List.mem_of_find?_eq_some hf) hr hs hx, Option.map_some]

theorem byte?_eq_none (h : ∀ r ∈ m.regions, ¬ r.Covers x 1) : m.byte? x = none := by
  simpa [byte?] using h

/-- Of the regions that start at or below an address, the nearest is found. -/
theorem Sound.find?_le (h : m.Sound) (hr : r ∈ m.regions) (hb : r.base ≤ a) :
    ∃ s ∈ m.regions, m.regions.find? (·.base ≤ a) = some s ∧ s.base ≤ a ∧
      (s = r ∨ r.stop ≤ s.base.toNat) := by
  cases hf : m.regions.find? (·.base ≤ a) with
  | none => exact absurd hb (by simpa using List.find?_eq_none.1 hf r hr)
  | some s =>
    have hmem := List.mem_of_find?_eq_some hf
    obtain ⟨hs, before, after, hlist, hbefore⟩ := List.find?_eq_some_iff_append.1 hf
    refine ⟨s, hmem, rfl, by simpa using hs, ?_⟩
    have ho := h.ordered
    rw [hlist] at ho hr
    -- a region before `s` starts above the address, one behind it ends at or below the base of `s`
    rcases List.mem_append.1 hr with hr | hr
    · exact absurd hb (by simpa using hbefore r hr)
    · rcases List.mem_cons.1 hr with rfl | hr
      · exact .inl rfl
      · exact .inr ((List.pairwise_cons.1 (List.pairwise_append.1 ho).2.1).1 r hr)

/-- Where a region holds a range, the nearest region holds it. The two can differ only for a range
of no bytes, which may lie at the end of one region and at the base of the next. -/
theorem Sound.exists_locate (h : m.Sound) (hr : r ∈ m.regions) (hc : r.Covers a.toNat n) :
    ∃ s ∈ m.regions, s.Covers a.toNat n ∧ m.locate a n = .ok (s, a.toNat - s.base.toNat) ∧
      (0 < n → s = r) := by
  obtain ⟨hlow, hhigh⟩ := hc
  have hsize := r.size_le_stop
  obtain ⟨s, hs, hf, hb, hsr⟩ := h.find?_le hr (Address.le_iff.2 hlow)
  rw [Address.le_iff] at hb
  have hcs : s.Covers a.toNat n := by
    rcases hsr with rfl | hsr
    · exact ⟨hlow, hhigh⟩
    · exact ⟨hb, by omega⟩
  have ho : s.offset? a n = some (a.toNat - s.base.toNat) :=
    Region.offset?_eq_some_iff.2 ⟨hcs, rfl⟩
  refine ⟨s, hs, hcs, by simp only [locate, hf, ho], fun hn => ?_⟩
  rcases hsr with rfl | hsr
  · rfl
  · omega

/-- The nearest region below an address is the only one that can hold it. -/
theorem Sound.locate_eq (h : m.Sound) (hr : r ∈ m.regions) (hc : r.Covers a.toNat n) (hn : 0 < n) :
    m.locate a n = .ok (r, a.toNat - r.base.toNat) := by
  obtain ⟨s, -, -, hl, hsr⟩ := h.exists_locate hr hc
  obtain rfl := hsr hn
  exact hl

/-- What is wrong with an access at an address, if there is something wrong. -/
def complaint (m : Memory) (a : Address) : String :=
  if ∃ r ∈ m.regions, r.base ≤ a then beyondBounds else outside

theorem eq_of_locate_error {f : Fault} (hl : m.locate a n = .error f) :
    f = .invalidPointer a (m.complaint a) := by
  rw [locate] at hl
  rw [complaint]
  split at hl
  · rename_i hf
    cases hl
    rw [if_neg]
    simpa using hf
  · rename_i r hf
    rw [if_pos ⟨r, List.mem_of_find?_eq_some hf, by simpa using List.find?_some hf⟩]
    split at hl <;> cases hl
    rfl

theorem Sound.locate_error_iff {f : Fault} (h : m.Sound) : m.locate a n = .error f ↔
    ¬ m.Holds a.toNat n ∧ f = .invalidPointer a (m.complaint a) := by
  constructor
  · intro hl
    refine ⟨fun ⟨r, hr, hc⟩ => ?_, eq_of_locate_error hl⟩
    obtain ⟨s, -, -, hs, -⟩ := h.exists_locate hr hc
    cases hs.symm.trans hl
  · rintro ⟨hn, rfl⟩
    cases hl : m.locate a n with
    | error f => rw [eq_of_locate_error hl]
    | ok x =>
      obtain ⟨hf, hc, -⟩ := locate_ok (r := x.1) (o := x.2) hl
      exact absurd ⟨_, List.mem_of_find?_eq_some hf, hc⟩ hn

theorem Sound.write_error_iff {f : Fault} {data : List UInt8} (h : m.Sound) :
    Memory.write a data m = .error f m' ↔ ¬ m.Holds a.toNat data.length ∧
      f = .invalidPointer a (m.complaint a) ∧ m' = { m with writes := m.writes + 1 } := by
  rw [write_apply, ← and_assoc, ← h.locate_error_iff]
  cases m.locate a data.length with
  | error f' => simp [eq_comm]
  | ok x => simp

/-- No address inside a region, and none at its end, wraps around. -/
theorem Sound.base_add_size_lt (h : m.Sound) (hr : r ∈ m.regions) :
    r.base.toNat + r.size < UInt64.size := by
  have hstop := r.size_le_stop
  have hnext := h.below r hr
  have hlt := m.next.toNat_lt
  omega

theorem Sound.toNat_offset (h : m.Sound) {d : UInt64} (hh : m.Holds a.toNat n) (hd : d.toNat ≤ n) :
    (a.offset d).toNat = a.toNat + d.toNat := by
  obtain ⟨r, hr, hc⟩ := hh
  have hsize := h.base_add_size_lt hr
  have hhigh := hc.2
  rw [Address.toNat_offset, Nat.mod_eq_of_lt (by omega)]

theorem Stores.holds {bs : List UInt8} {b : Nat} (h : m.Stores b bs) : m.Holds b bs.length := by
  obtain ⟨r, hr, hc, -⟩ := h
  exact ⟨r, hr, hc⟩

/-! ## Reading -/

theorem Sound.read_of_stores (h : m.Sound) {bs : List UInt8} (hs : m.Stores a.toNat bs)
    (hn : 0 < bs.length) : m.read a bs.length = .ok bs := by
  obtain ⟨r, hr, hc, hb⟩ := hs
  rw [read, h.locate_eq hr hc hn]
  exact congrArg Except.ok hb

theorem Stores.part {before bs after : List UInt8} {b : Nat}
    (h : m.Stores b (before ++ bs ++ after)) : m.Stores (b + before.length) bs := by
  obtain ⟨r, hr, hc, hb⟩ := h
  have hpos := hc.1
  rw [Region.slice_eq_iff] at hb
  simp only [List.length_append] at hc hb
  refine ⟨r, hr, hc.part (by omega) (by omega), Region.slice_eq_iff.2 fun i hi => ?_⟩
  have hbyte := hb (before.length + i) (by omega)
  rw [List.getElem_append_left (by simp; omega), List.getElem_append_right (by omega)] at hbyte
  simp only [Nat.add_sub_cancel_left] at hbyte
  rw [← hbyte]
  congr 1
  omega

/-! ## Storing -/

theorem mem_overwrite (hr : r ∈ m.regions) (base : Address) (o : Nat) (data : List UInt8) :
    r.stored base o data ∈ (m.overwrite base o data).regions := List.mem_map.2 ⟨r, hr, rfl⟩

theorem stores_of_write {data : List UInt8} {u : Unit} (hw : write a data m = .ok u m') :
    m'.Stores a.toNat data := by
  obtain ⟨r, o, hl, rfl⟩ := write_ok_iff.1 hw
  obtain ⟨hf, hc, rfl⟩ := locate_ok hl
  have hr : r ∈ ({ m with writes := m.writes + 1 } : Memory).regions := List.mem_of_find?_eq_some hf
  refine ⟨_, mem_overwrite hr r.base (a.toNat - r.base.toNat) data, ?_, ?_⟩
  · exact Region.covers_stored.2 hc
  · apply Region.slice_eq_iff.2
    intro i hi
    rw [Region.stored_base, Region.byte_stored, dif_pos ⟨rfl, by omega, by omega⟩]
    congr 1
    omega

/-- A store changes the bytes of its own range only, in each region. -/
theorem byte_of_write {data : List UInt8} (hc : r.Covers a.toNat data.length)
    (hs : s.Covers x 1) :
    (s.stored r.base (a.toNat - r.base.toNat) data).byte (x - s.base.toNat) =
      if h : s.base = r.base ∧ a.toNat ≤ x ∧ x < a.toNat + data.length then data[x - a.toNat]
      else s.byte (x - s.base.toNat) := by
  have hrlow := hc.1
  have hslow := hs.1
  rw [Region.byte_stored]
  by_cases hb : s.base = r.base
  · have hbn : s.base.toNat = r.base.toNat := by rw [hb]
    by_cases hx : a.toNat ≤ x ∧ x < a.toNat + data.length
    · rw [dif_pos ⟨hb, by omega, by omega⟩, dif_pos ⟨hb, hx⟩]
      congr 1
      omega
    · rw [dif_neg (by omega), dif_neg (fun hn => hx hn.2)]
  · rw [dif_neg (fun hn => hb hn.1), dif_neg (fun hn => hb hn.1)]

theorem Sound.byte?_write {data : List UInt8} {u : Unit} (h : m.Sound)
    (hw : Memory.write a data m = .ok u m') (x : Nat) :
    m'.byte? x = if a.toNat ≤ x ∧ x < a.toNat + data.length then data[x - a.toNat]?
      else m.byte? x := by
  have hsound := h.write hw
  obtain ⟨r, o, hl, rfl⟩ := write_ok_iff.1 hw
  obtain ⟨hf, hc, rfl⟩ := locate_ok hl
  have hr := List.mem_of_find?_eq_some hf
  by_cases hx : ∃ s ∈ m.regions, s.Covers x 1
  · obtain ⟨s, hs, hsx⟩ := hx
    have hm : s.stored r.base (a.toNat - r.base.toNat) data ∈ _ :=
      mem_overwrite (m := { m with writes := m.writes + 1 }) hs _ _ _
    rw [hsound.byte?_of_mem hm (Region.covers_stored.2 hsx), Region.stored_base,
      byte_of_write hc hsx, h.byte?_of_mem hs hsx]
    by_cases hin : a.toNat ≤ x ∧ x < a.toNat + data.length
    · have hrs : s = r := h.eq_of_covers hs hr hsx (hc.part hin.1 (by omega))
      rw [dif_pos ⟨congrArg Region.base hrs, hin⟩, if_pos hin, List.getElem?_eq_getElem (by omega)]
    · rw [dif_neg (fun hn => hin hn.2), if_neg hin]
  · have hnone : ∀ s ∈ m.regions, ¬ s.Covers x 1 := fun s hs hsx => hx ⟨s, hs, hsx⟩
    have hout : ¬ (a.toNat ≤ x ∧ x < a.toNat + data.length) := fun hin =>
      hnone r hr (hc.part hin.1 (by omega))
    rw [if_neg hout, byte?_eq_none hnone, byte?_eq_none]
    intro t ht htx
    obtain ⟨s, hs, rfl⟩ := List.mem_map.1 ht
    exact hnone s hs (Region.covers_stored.1 htx)

theorem Sound.overwritten_of_write {data : List UInt8} {u : Unit} (h : m.Sound)
    (hw : Memory.write a data m = .ok u m') : m.Overwritten m' a.toNat data := by
  have hbytes := h.byte?_write hw
  obtain ⟨r, o, hl, rfl⟩ := write_ok_iff.1 hw
  obtain ⟨hf, hc, -⟩ := locate_ok hl
  exact ⟨⟨r, List.mem_of_find?_eq_some hf, hc⟩, hbytes, extents_overwrite _ _ _, rfl, rfl, rfl⟩

theorem writes_of_write {data : List UInt8} {u : Unit} (hw : write a data m = .ok u m') :
    m'.writes = m.writes + 1 := by
  obtain ⟨r, o, -, rfl⟩ := write_ok_iff.1 hw
  rfl

/-! ## What stands in memory lasts -/

theorem Stores.alloc {bs : List UInt8} {b : Nat} {size : UInt64} (h : m.Stores b bs)
    (ha : Memory.alloc size m = .ok a m') : m'.Stores b bs := by
  obtain ⟨-, -, -, rfl⟩ := alloc_ok_iff.1 ha
  obtain ⟨r, hr, hc, hb⟩ := h
  exact ⟨r, List.mem_cons_of_mem _ hr, hc, hb⟩

theorem Stores.free {bs : List UInt8} {b : Nat} {u : Unit} (h : m.Stores b bs)
    (hf : Memory.free a m = .ok u m') (hne : ∀ r ∈ m.regions, r.Covers b bs.length → r.base ≠ a) :
    m'.Stores b bs := by
  obtain ⟨t, -, rfl⟩ := free_ok_iff.1 hf
  obtain ⟨r, hr, hc, hb⟩ := h
  exact ⟨r, List.mem_filter.2 ⟨hr, by simpa using hne r hr hc⟩, hc, hb⟩

theorem Stores.write {bs data : List UInt8} {b : Nat} {u : Unit} (h : m.Stores b bs)
    (hw : Memory.write a data m = .ok u m') (hd : Apart a.toNat data.length b bs.length) :
    m'.Stores b bs := by
  obtain ⟨r, o, hl, rfl⟩ := write_ok_iff.1 hw
  obtain ⟨hf, hc, rfl⟩ := locate_ok hl
  obtain ⟨s, hs, hcs, hb⟩ := h
  refine ⟨_, mem_overwrite (m := { m with writes := m.writes + 1 }) hs r.base
    (a.toNat - r.base.toNat) data, Region.covers_stored.2 hcs, ?_⟩
  rw [Region.slice_eq_iff] at hb ⊢
  intro i hi
  have hx : s.Covers (b + i) 1 := hcs.part (by omega) (by omega)
  have hbyte := byte_of_write hc hx
  rw [dif_neg (fun hn => hd (b + i) hn.2.1 hn.2.2 (by omega) (by omega))] at hbyte
  have hpos := hcs.1
  have hidx : b - s.base.toNat + i = b + i - s.base.toNat := by omega
  rw [Region.stored_base, hidx, hbyte, ← hidx]
  exact hb i hi

end Memory

end Unwinding
