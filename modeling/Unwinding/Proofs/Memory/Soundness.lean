import Mathlib
import Unwinding.Config

/-!
# The invariant of the allocator

Live regions lie one behind the other below the next address, newest on top, and what is in use is
the sum of their sizes within the limit. Every memory that allocating, freeing and storing can bring
about is sound in this sense, and in a sound memory the nearest region at or below an address is the
only one that can hold it.
-/
namespace Unwinding

namespace Region

/-- The first address behind the ones that a region takes up. -/
def stop (r : Region) : Nat := r.base.toNat + Memory.span r.size

/-- The addresses from `a` to `a + n` lie inside the region. -/
def Covers (r : Region) (a n : Nat) : Prop :=
  r.base.toNat ≤ a ∧ a + n ≤ r.base.toNat + r.size

instance (r : Region) (a n : Nat) : Decidable (r.Covers a n) := inferInstanceAs (Decidable (_ ∧ _))

theorem stop_pos (r : Region) : r.base.toNat < r.stop := by
  unfold stop Memory.span
  omega

theorem size_le_stop (r : Region) : r.base.toNat + r.size ≤ r.stop := by
  unfold stop Memory.span
  omega

theorem Covers.part {r : Region} {a n b k : Nat} (h : r.Covers a n) (hb : a ≤ b)
    (hk : b + k ≤ a + n) : r.Covers b k := by
  have hlow := h.1
  have hhigh := h.2
  exact ⟨by omega, by omega⟩

theorem offset?_eq_some_iff {r : Region} {a : Address} {n o : Nat} :
    r.offset? a n = some o ↔ r.Covers a.toNat n ∧ o = a.toNat - r.base.toNat := by
  rw [offset?, Covers]
  split
  · rename_i h
    rw [Option.some.injEq, eq_comm, iff_and_self]
    intro
    omega
  · rename_i h
    simp only [reduceCtorEq, false_iff]
    omega

end Region

namespace Memory

/-- The bases and sizes of the live regions. -/
def extents (m : Memory) : List (Address × Nat) := m.regions.map fun r => (r.base, r.size)

structure Sound (m : Memory) : Prop where
  ordered : m.regions.Pairwise fun r s => s.stop ≤ r.base.toNat
  below : ∀ r ∈ m.regions, r.stop ≤ m.next.toNat
  used_eq : m.used = (m.regions.map (·.size)).sum
  used_le : m.used ≤ m.limit.toNat

/-- The memories that operations can bring about, whether or not they succeed. -/
inductive Reachable : Memory → Prop
  | new (c : MemoryConfig) : Reachable (.new c)
  | alloc {m : Memory} (size : UInt64) (h : Reachable m) : Reachable (Action.final (alloc size m))
  | free {m : Memory} (a : Address) (h : Reachable m) : Reachable (Action.final (free a m))
  | write {m : Memory} (a : Address) (data : List UInt8) (h : Reachable m) :
      Reachable (Action.final (write a data m))

variable {m m' : Memory} {a : Address} {n : Nat}

/-! ## What the operations do -/

theorem next_add_span_le_nextAfter (size : Nat) :
    m.next.toNat + span size ≤ nextAfter m.next size := by
  unfold nextAfter alignment
  omega

theorem alloc_ok_iff {size : UInt64} : alloc size m = .ok a m' ↔
    ¬ m.limit.toNat < min (m.used + size.toNat) maxSize ∧
    m.next.toNat + span size.toNat + (alignment - 1) < UInt64.size ∧ a = m.next ∧
    m' = { m with
      regions := .zeroed m.next size.toNat :: m.regions
      next := .ofNat (nextAfter m.next size.toNat)
      used := m.used + size.toNat } := by
  rw [alloc_apply]
  split
  · rename_i h
    simp [h]
  · split
    · rename_i hl hs
      simp only [reduceCtorEq, false_iff]
      omega
    · rename_i hl hs
      simp only [EStateM.Result.ok.injEq, hl, not_false_eq_true, Nat.lt_of_not_le hs, true_and]
      simp only [eq_comm]

/-- The next address does not wrap around. -/
theorem toNat_next_of_alloc {size : UInt64} (h : alloc size m = .ok a m') :
    m'.next.toNat = nextAfter m.next size.toNat := by
  obtain ⟨-, hs, -, rfl⟩ := alloc_ok_iff.1 h
  rw [Address.toNat_ofNat, Nat.mod_eq_of_lt]
  unfold nextAfter alignment at *
  omega

theorem free_ok_iff {u : Unit} : free a m = .ok u m' ↔ ∃ r, m.regions.find? (·.base = a) = some r ∧
    m' = { m with regions := m.regions.filter (·.base ≠ a), used := m.used - r.size } := by
  rw [free_apply]
  cases hf : m.regions.find? (·.base = a) with
  | none => simp
  | some r => simp [eq_comm]

theorem write_ok_iff {data : List UInt8} {u : Unit} : write a data m = .ok u m' ↔
    ∃ r o, m.locate a data.length = .ok (r, o) ∧
      m' = { m with writes := m.writes + 1 }.overwrite r.base o data := by
  rw [write_apply]
  cases hl : m.locate a data.length with
  | error f => simp
  | ok p =>
    obtain ⟨r, o⟩ := p
    simp only [EStateM.Result.ok.injEq, true_and, Except.ok.injEq, Prod.mk.injEq]
    constructor
    · rintro rfl
      exact ⟨r, o, ⟨rfl, rfl⟩, rfl⟩
    · rintro ⟨r', o', ⟨rfl, rfl⟩, rfl⟩
      rfl

/-- An operation that fails leaves all as it was, but for the count of stores. -/
theorem final_alloc_of_error {size : UInt64} {f : Fault} (h : alloc size m = .error f m') :
    m' = m := by
  rw [alloc_apply] at h
  split at h
  · cases h
    rfl
  · split at h
    · cases h
      rfl
    · cases h

theorem final_free_of_error {f : Fault} (h : free a m = .error f m') : m' = m := by
  rw [free_apply] at h
  split at h
  · cases h
    rfl
  · cases h

theorem final_write_of_error {data : List UInt8} {f : Fault} (h : write a data m = .error f m') :
    m' = { m with writes := m.writes + 1 } := by
  rw [write_apply] at h
  split at h <;> cases h
  rfl

theorem locate_ok {r : Region} {o : Nat} (h : m.locate a n = .ok (r, o)) :
    m.regions.find? (·.base ≤ a) = some r ∧ r.Covers a.toNat n ∧ o = a.toNat - r.base.toNat := by
  rw [locate] at h
  split at h
  · cases h
  · rename_i s hs
    split at h
    · cases h
    · rename_i offset ho
      cases h
      exact ⟨hs, Region.offset?_eq_some_iff.1 ho⟩

/-! ## Storing leaves regions in their places -/

theorem extents_overwrite (base : Address) (o : Nat) (data : List UInt8) :
    (m.overwrite base o data).extents = m.extents := by
  rw [extents, extents, overwrite, List.map_map]
  apply List.map_congr_left
  intro r _
  by_cases h : r.base = base <;> simp [h, Region.overwrite]

private def extentStop (e : Address × Nat) : Nat := e.1.toNat + span e.2

theorem Sound.of_extents (h : m.Sound) (he : m'.extents = m.extents) (hn : m'.next = m.next)
    (hu : m'.used = m.used) (hl : m'.limit = m.limit) : m'.Sound where
  ordered := by
    have ho : m.extents.Pairwise fun r s => extentStop s ≤ r.1.toNat := List.pairwise_map.2 h.ordered
    rw [← he] at ho
    exact List.pairwise_map.1 ho
  below := by
    intro r hr
    have hm : (r.base, r.size) ∈ m'.extents := List.mem_map.2 ⟨r, hr, rfl⟩
    rw [he] at hm
    obtain ⟨s, hs, hrs⟩ := List.mem_map.1 hm
    obtain ⟨hb, hsize⟩ := Prod.mk.inj hrs
    rw [Region.stop, ← hb, ← hsize, hn]
    exact h.below s hs
  used_eq := by
    have hs : (m'.extents.map (·.2)).sum = (m.extents.map (·.2)).sum := by rw [he]
    simp only [extents, List.map_map] at hs
    rw [hu, h.used_eq]
    exact hs.symm
  used_le := by
    rw [hu, hl]
    exact h.used_le

/-! ## Soundness -/

theorem sound_new (c : MemoryConfig) : (Memory.new c).Sound where
  ordered := .nil
  below := by simp [Memory.new]
  used_eq := by simp [Memory.new]
  used_le := by simp [Memory.new]

/-- The sizes of regions that lie one behind the other add up to no more than where they end. -/
private theorem sum_size_le {rs : List Region} {top : Nat}
    (ho : rs.Pairwise fun r s => s.stop ≤ r.base.toNat) (hb : ∀ r ∈ rs, r.stop ≤ top) :
    (rs.map (·.size)).sum ≤ top := by
  induction rs generalizing top with
  | nil => simp
  | cons r rs ih =>
    obtain ⟨hr, ho⟩ := List.pairwise_cons.1 ho
    have h := ih ho hr
    have ht := hb r (by simp)
    have hs := r.size_le_stop
    simp only [List.map_cons, List.sum_cons]
    omega

theorem Sound.used_le_next (h : m.Sound) : m.used ≤ m.next.toNat := by
  rw [h.used_eq]
  exact sum_size_le h.ordered h.below

theorem Sound.alloc {size : UInt64} (h : m.Sound) (ha : Memory.alloc size m = .ok a m') :
    m'.Sound := by
  have hnext := toNat_next_of_alloc ha
  have hstop := next_add_span_le_nextAfter (m := m) size.toNat
  rw [← hnext] at hstop
  obtain ⟨hl, hs, rfl, rfl⟩ := alloc_ok_iff.1 ha
  refine ⟨List.pairwise_cons.2 ⟨h.below, h.ordered⟩, ?_, ?_, ?_⟩
  · intro r hr
    rcases List.mem_cons.1 hr with rfl | hr
    · exact hstop
    · have hr := h.below r hr
      unfold span at hstop
      omega
  · simp [h.used_eq, Region.zeroed, Nat.add_comm]
  · have hu := h.used_le_next
    unfold maxSize at hl
    unfold span alignment at hs
    dsimp only
    omega

/-- In a row of regions only one has a given base. -/
private theorem sum_size_filter {rs : List Region} {r : Region}
    (ho : rs.Pairwise fun r s => s.stop ≤ r.base.toNat) (hr : rs.find? (·.base = a) = some r) :
    ((rs.filter (·.base ≠ a)).map (·.size)).sum + r.size = (rs.map (·.size)).sum := by
  induction rs with
  | nil => simp at hr
  | cons s rs ih =>
    obtain ⟨hs, ho⟩ := List.pairwise_cons.1 ho
    by_cases hb : s.base = a
    · obtain rfl : s = r := by simpa [hb] using hr
      have hf : rs.filter (·.base ≠ a) = rs := by
        rw [List.filter_eq_self]
        intro t ht
        have hst := hs t ht
        have hpos := t.stop_pos
        have hne : t.base ≠ a := by
          rintro rfl
          rw [hb] at hst
          omega
        simpa using hne
      simp only [hb, ne_eq, not_true_eq_false, decide_false, Bool.false_eq_true, not_false_eq_true,
        List.filter_cons_of_neg, List.map_cons, List.sum_cons, hf]
      omega
    · have h := ih ho (by simpa [hb] using hr)
      simp only [ne_eq] at h
      simp only [ne_eq, hb, not_false_eq_true, decide_true, List.filter_cons_of_pos, List.map_cons,
        List.sum_cons]
      omega

theorem Sound.free {u : Unit} (h : m.Sound) (hf : Memory.free a m = .ok u m') : m'.Sound := by
  obtain ⟨r, hr, rfl⟩ := free_ok_iff.1 hf
  refine ⟨h.ordered.filter _, fun s hs => h.below s (List.mem_filter.1 hs).1, ?_, ?_⟩
  · have hsum := sum_size_filter h.ordered hr
    have hu := h.used_eq
    dsimp only
    omega
  · exact Nat.le_trans (Nat.sub_le _ _) h.used_le

theorem Sound.write {data : List UInt8} {u : Unit} (h : m.Sound)
    (hw : Memory.write a data m = .ok u m') : m'.Sound := by
  obtain ⟨r, o, -, rfl⟩ := write_ok_iff.1 hw
  exact h.of_extents (extents_overwrite (m := { m with writes := m.writes + 1 }) r.base o data)
    rfl rfl rfl

theorem Sound.stored (h : m.Sound) : ({ m with writes := m.writes + 1 } : Memory).Sound :=
  h.of_extents rfl rfl rfl rfl

theorem Reachable.sound (h : m.Reachable) : m.Sound := by
  induction h with
  | new c => exact sound_new c
  | @alloc m size _ ih =>
    cases ha : Memory.alloc size m with
    | ok a m' => exact ih.alloc ha
    | error f m' =>
      obtain rfl := final_alloc_of_error ha
      exact ih
  | @free m a _ ih =>
    cases hf : Memory.free a m with
    | ok u m' => exact ih.free hf
    | error f m' =>
      obtain rfl := final_free_of_error hf
      exact ih
  | @write m a data _ ih =>
    cases hw : Memory.write a data m with
    | ok u m' => exact ih.write hw
    | error f m' =>
      obtain rfl := final_write_of_error hw
      exact ih.stored

end Memory

end Unwinding
