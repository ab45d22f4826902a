import Unwinding.Proofs.Memory.Bytes

/-!
# Rows of requests

A row of requests runs on a memory, whether or not each of them succeeds. The next address only
grows, so an address is handed out once at most, and where a region was given back no later request
puts another one: nothing finds the addresses that it took up any more. Regions that lie apart below
the next address cannot be larger together than the address space, so their sizes are added up
without overflow, also under a budget that refuses nothing.
-/
namespace Unwinding

namespace Memory

/-- A call that can change a memory. -/
inductive Request
  | alloc (size : UInt64)
  | free (a : Address)
  | write (a : Address) (data : List UInt8)

/-- The memory after a request, whether or not it succeeds. -/
def step (m : Memory) : Request → Memory
  | .alloc size => Action.final (alloc size m)
  | .free a => Action.final (free a m)
  | .write a data => Action.final (write a data m)

def run (m : Memory) (requests : List Request) : Memory := requests.foldl step m

/-- The address that a request hands out, if it does. -/
def granted? (m : Memory) : Request → Option Address
  | .alloc size =>
    match alloc size m with
    | .ok a _ => some a
    | .error _ _ => none
  | .free _ | .write .. => none

/-- All addresses that a row of requests hands out, in order. -/
def granted (m : Memory) : List Request → List Address
  | [] => []
  | r :: rs => (m.granted? r).toList ++ (m.step r).granted rs

/-- Every way to reach the addresses that region `r` took up fails. -/
structure Gone (m : Memory) (r : Region) : Prop where
  free : free r.base m = .error (.invalidPointer r.base notAllocated) m
  isValid : ∀ a : Address, r.Covers a.toNat 1 → m.isValid a = false
  read : ∀ (a : Address) n, ¬ Apart a.toNat n r.base.toNat (span r.size) →
    ∃ f, m.read a n = .error f
  write : ∀ (a : Address) data, ¬ Apart a.toNat data.length r.base.toNat (span r.size) →
    ∃ f m', write a data m = .error f m'

/-! ## One request -/

/-- What a request can do, and the address that it hands out. -/
inductive Served (m : Memory) : Option Address → Memory → Prop
  | refused {m'} (h : m.Untouched m') : Served m none m'
  | alloc {m' size a} (h : Memory.alloc size m = .ok a m') : Served m (some a) m'
  | free {m' a} (h : Memory.free a m = .ok () m') : Served m none m'
  | write {m' a data} (h : Memory.write a data m = .ok () m') : Served m none m'

/-- No live region takes up an address from `low` to `high`, and none will. -/
structure Vacant (m : Memory) (low high : Nat) : Prop where
  behind : high ≤ m.next.toNat
  apart : ∀ e ∈ m.extents, e.1.toNat + span e.2 ≤ low ∨ high ≤ e.1.toNat

variable {m m' : Memory} {a : Address} {answer : Option Address} {low high : Nat}

theorem served (m : Memory) (r : Request) : m.Served (m.granted? r) (m.step r) := by
  cases r with
  | alloc size =>
    rw [granted?, step]
    cases h : Memory.alloc size m with
    | ok a m' => exact .alloc h
    | error f m' =>
      obtain rfl := final_alloc_of_error h
      exact .refused (.refl _)
  | free a =>
    rw [granted?, step]
    cases h : Memory.free a m with
    | ok u m' => exact .free h
    | error f m' =>
      obtain rfl := final_free_of_error h
      exact .refused (.refl _)
  | write a data =>
    rw [granted?, step]
    cases h : Memory.write a data m with
    | ok u m' => exact .write h
    | error f m' => exact .refused (untouched_of_write_error h)

theorem Served.sound (h : m.Served answer m') (hm : m.Sound) : m'.Sound := by
  cases h with
  | refused h => exact hm.of_untouched h
  | alloc h => exact hm.alloc h
  | free h => exact hm.free h
  | write h => exact hm.write h

theorem Served.limit (h : m.Served answer m') : m'.limit = m.limit := by
  cases h with
  | refused h => exact h.limit
  | alloc h =>
    obtain ⟨-, -, -, rfl⟩ := alloc_ok_iff.1 h
    rfl
  | free h =>
    obtain ⟨-, -, rfl⟩ := free_ok_iff.1 h
    rfl
  | write h =>
    obtain ⟨-, -, -, rfl⟩ := write_ok_iff.1 h
    rfl

theorem next_lt_of_alloc {size : UInt64} (h : Memory.alloc size m = .ok a m') :
    a = m.next ∧ m.next.toNat < m'.next.toNat := by
  have hnext := next_add_span_le_nextAfter (m := m) size.toNat
  have hpos : 0 < span size.toNat := Nat.lt_of_lt_of_le Nat.one_pos (Nat.le_max_right _ _)
  rw [← toNat_next_of_alloc h] at hnext
  exact ⟨(alloc_ok_iff.1 h).2.2.1, by omega⟩

theorem Served.next_le (h : m.Served answer m') : m.next.toNat ≤ m'.next.toNat := by
  cases h with
  | refused h => rw [h.next]
  | alloc h => exact Nat.le_of_lt (next_lt_of_alloc h).2
  | free h =>
    obtain ⟨-, -, rfl⟩ := free_ok_iff.1 h
    rfl
  | write h =>
    obtain ⟨-, -, -, rfl⟩ := write_ok_iff.1 h
    rfl

/-- The one request that adds a region puts it at or above the next address. -/
theorem Served.extents (h : m.Served answer m') :
    ∀ e ∈ m'.extents, e ∈ m.extents ∨ m.next = e.1 := by
  intro e he
  cases h with
  | refused h =>
    rw [Memory.extents, h.regions] at he
    exact .inl he
  | alloc h =>
    obtain ⟨-, -, -, rfl⟩ := alloc_ok_iff.1 h
    rcases List.mem_cons.1 he with rfl | he
    · exact .inr rfl
    · exact .inl he
  | free h =>
    obtain ⟨r, -, rfl⟩ := free_ok_iff.1 h
    exact .inl (List.map_subset _ (List.filter_subset_self _) he)
  | write h =>
    obtain ⟨r, o, -, rfl⟩ := write_ok_iff.1 h
    rw [extents_overwrite] at he
    exact .inl he

theorem Vacant.served (hv : m.Vacant low high) (h : m.Served answer m') : m'.Vacant low high where
  behind := Nat.le_trans hv.behind h.next_le
  apart := by
    intro e he
    rcases h.extents e he with he | he
    · exact hv.apart e he
    · rw [← he]
      exact .inr hv.behind

/-! ## A row of requests -/

section Run
variable {requests : List Request}

theorem run_append (m : Memory) (requests later : List Request) :
    m.run (requests ++ later) = (m.run requests).run later := List.foldl_append

theorem Sound.run (h : m.Sound) : (m.run requests).Sound := by
  induction requests generalizing m with
  | nil => exact h
  | cons r rs ih => exact ih ((m.served r).sound h)

theorem run_limit : (m.run requests).limit = m.limit := by
  induction requests generalizing m with
  | nil => rfl
  | cons r rs ih => exact (ih (m := m.step r)).trans (m.served r).limit

theorem next_le_run : m.next.toNat ≤ (m.run requests).next.toNat := by
  induction requests generalizing m with
  | nil => exact Nat.le_refl _
  | cons r rs ih => exact Nat.le_trans (m.served r).next_le (ih (m := m.step r))

theorem Vacant.run (h : m.Vacant low high) : (m.run requests).Vacant low high := by
  induction requests generalizing m with
  | nil => exact h
  | cons r rs ih => exact ih (h.served (m.served r))

/-- An address is not handed out before the next address has reached it. -/
theorem next_le_of_granted (ha : a ∈ m.granted requests) : m.next.toNat ≤ a.toNat := by
  induction requests generalizing m with
  | nil => simp [granted] at ha
  | cons r rs ih =>
    have hs := m.served r
    rw [granted] at ha
    rcases List.mem_append.1 ha with ha | ha
    · rw [Option.mem_toList] at ha
      rw [ha] at hs
      cases hs with
      | alloc h => rw [(next_lt_of_alloc h).1]
    · exact Nat.le_trans hs.next_le (ih ha)

theorem granted_increasing (m : Memory) (requests : List Request) :
    (m.granted requests).Pairwise fun a b => a.toNat < b.toNat := by
  induction requests generalizing m with
  | nil => exact .nil
  | cons r rs ih =>
    rw [granted]
    refine List.pairwise_append.2 ⟨by cases m.granted? r <;> simp, ih _, ?_⟩
    intro a ha b hb
    have hs := m.served r
    rw [Option.mem_toList] at ha
    rw [ha] at hs
    cases hs with
    | alloc h =>
      obtain ⟨rfl, hlt⟩ := next_lt_of_alloc h
      exact Nat.lt_of_lt_of_le hlt (next_le_of_granted hb)

end Run

/-! ## Vacant places -/

variable {r : Region}

/-- Nothing starts where a region started that is given back, or anywhere in it. -/
theorem Sound.vacant_of_free (h : m.Sound) (hr : r ∈ m.regions)
    (hf : Memory.free r.base m = .ok () m') : m'.Vacant r.base.toNat r.stop := by
  obtain ⟨-, -, rfl⟩ := free_ok_iff.1 hf
  refine ⟨h.below r hr, fun e he => ?_⟩
  obtain ⟨s, hs, rfl⟩ := List.mem_map.1 he
  obtain ⟨hs, hne⟩ := List.mem_filter.1 hs
  have hne : s.base ≠ r.base := by simpa using hne
  rcases h.apart hr hs with rfl | hrs | hsr
  · exact absurd rfl hne
  · exact .inr hrs
  · exact .inl hsr

theorem free_of_mem (hr : r ∈ m.regions) :
    Memory.free r.base m = .ok () (m.step (.free r.base)) := by
  rw [step, free_apply]
  cases hf : m.regions.find? (·.base = r.base) with
  | none => exact absurd (List.find?_eq_none.1 hf r hr) (by simp)
  | some s => rfl

theorem Vacant.locate {n : Nat} (h : m.Vacant low high)
    (hn : ¬ Apart a.toNat n low (high - low)) : ∃ f, m.locate a n = .error f := by
  cases hl : m.locate a n with
  | error f => exact ⟨f, rfl⟩
  | ok p =>
    obtain ⟨hf, hc, -⟩ := locate_ok hl
    have hv := h.apart (p.1.base, p.1.size)
      (List.mem_map.2 ⟨p.1, List.mem_of_find?_eq_some hf, rfl⟩)
    have hspan : p.1.size ≤ span p.1.size := Nat.le_max_left _ _
    refine absurd (fun x _ _ _ _ => ?_) hn
    obtain ⟨hlow, hhigh⟩ := hc
    dsimp only at hv
    omega

theorem Vacant.gone (h : m.Vacant r.base.toNat r.stop) : m.Gone r := by
  have hpos := r.stop_pos
  have hspan : r.stop - r.base.toNat = span r.size := Nat.add_sub_cancel_left _ _
  refine ⟨?_, fun a ha => ?_, fun a n hn => ?_, fun a data hn => ?_⟩
  · have hnone : m.regions.find? (·.base = r.base) = none := by
      apply List.find?_eq_none.2
      intro s hs hb
      have hv := h.apart (s.base, s.size) (List.mem_map.2 ⟨s, hs, rfl⟩)
      have hb : s.base = r.base := by simpa using hb
      have hsize : 0 < span s.size := Nat.lt_of_lt_of_le Nat.one_pos (Nat.le_max_right _ _)
      rw [hb] at hv
      dsimp only at hv
      omega
    rw [free_apply, hnone]
  · have hsize := r.size_le_stop
    obtain ⟨hlow, hhigh⟩ := ha
    obtain ⟨f, hf⟩ := h.locate (a := a) (n := 1) fun hn =>
      hn a.toNat (by omega) (by omega) (by omega) (by omega)
    rw [isValid, hf]
    rfl
  · rw [← hspan] at hn
    obtain ⟨f, hf⟩ := h.locate hn
    exact ⟨f, by rw [read, hf]; rfl⟩
  · rw [← hspan] at hn
    obtain ⟨f, hf⟩ := h.locate hn
    exact ⟨f, _, by rw [write_apply, hf]⟩

/-- Addresses have one life: regions lie apart below the next address, each address that is handed
out lies above those before it, and of a region that was given back nothing is left. -/
theorem addresses_live_once (c : MemoryConfig) (requests later : List Request) :
    let m := (new c).run requests
    (m.regions.Pairwise fun r s => Apart r.base.toNat (span r.size) s.base.toNat (span s.size)) ∧
    (∀ r ∈ m.regions, r.base.toNat + span r.size ≤ m.next.toNat) ∧
    (∀ size a m', alloc size m = .ok a m' →
      nextAfter m.next size.toNat < UInt64.size ∧ m'.next.toNat = nextAfter m.next size.toNat) ∧
    m.next.toNat ≤ (m.run later).next.toNat ∧
    (((new c).granted requests).Pairwise fun a b => a.toNat < b.toNat) ∧
    (c.base ≠ .null → ∀ a ∈ (new c).granted requests, a ≠ .null) ∧
    ∀ r ∈ m.regions, free r.base m = .ok () (m.step (.free r.base)) ∧
      ((new c).run (requests ++ .free r.base :: later)).Gone r := by
  intro m
  have hm : m.Sound := (sound_new c).run
  refine ⟨?_, hm.below, ?_, next_le_run, granted_increasing _ _, ?_, ?_⟩
  · refine hm.ordered.imp fun {r s} hrs x _ _ _ _ => ?_
    unfold Region.stop at hrs
    omega
  · intro size a m' ha
    have hnext := toNat_next_of_alloc ha
    exact ⟨hnext ▸ m'.next.toNat_lt, hnext⟩
  · intro hc a ha hnull
    have hle : c.base.toNat ≤ a.toNat := next_le_of_granted ha
    rw [hnull] at hle
    exact hc (Address.toNat_inj (Nat.le_zero.1 hle))
  · intro r hr
    have hf := free_of_mem hr
    refine ⟨hf, ?_⟩
    rw [run_append]
    exact (hm.vacant_of_free hr hf).run.gone

/-- An empty region at an address that is no multiple of sixteen is given back between requests, one
of which is refused. -/
theorem empty_region_lives_once :
    let c : MemoryConfig := ⟨100, ⟨0x1001⟩⟩
    let requests : List Request := [.alloc 0, .alloc 20, .alloc 90]
    let later : List Request := [.alloc 3, .write ⟨0x1010⟩ [7]]
    let r : Region := .zeroed ⟨0x1001⟩ 0
    c.base ≠ .null ∧ r ∈ ((new c).run requests).regions ∧
      (new c).granted requests = [⟨0x1001⟩, ⟨0x1010⟩] ∧
      (∀ a ∈ (new c).granted requests, a ≠ .null) ∧
      ((new c).run (requests ++ .free r.base :: later)).Gone r := by
  intro c requests later r
  have hc : c.base ≠ .null := by decide
  have hregions : ((new c).run requests).regions = [.zeroed ⟨0x1010⟩ 20, r] := by cbv
  have hr : r ∈ ((new c).run requests).regions := by
    rw [hregions]
    exact List.mem_cons_of_mem _ List.mem_cons_self
  obtain ⟨-, -, -, -, -, hnull, hgone⟩ := addresses_live_once c requests later
  exact ⟨hc, hr, by decide, hnull hc, (hgone r hr).2⟩

/-! ## The budget -/

/-- Where a further region fits behind the others, its size can be added to theirs. -/
theorem Sound.used_add_lt (h : m.Sound) {size : Nat}
    (hs : m.next.toNat + span size + (alignment - 1) < UInt64.size) :
    m.used + size < UInt64.size := by
  have hused := h.used_le_next
  have hspan : size ≤ span size := Nat.le_max_left _ _
  omega

theorem Sound.alloc_ok_iff (h : m.Sound) {size : UInt64} : Memory.alloc size m = .ok a m' ↔
    m.used + size.toNat ≤ m.limit.toNat ∧
    m.next.toNat + span size.toNat + (alignment - 1) < UInt64.size ∧ a = m.next ∧
    m' = { m with
      regions := .zeroed m.next size.toNat :: m.regions
      next := .ofNat (nextAfter m.next size.toNat)
      used := m.used + size.toNat } := by
  rw [Memory.alloc_ok_iff]
  -- a sum that saturates does not fit the address space either
  have hbudget (hs : m.next.toNat + span size.toNat + (alignment - 1) < UInt64.size) :
      ¬ m.limit.toNat < min (m.used + size.toNat) maxSize ↔
        m.used + size.toNat ≤ m.limit.toNat := by
    have hlt := h.used_add_lt hs
    unfold maxSize
    omega
  constructor
  · rintro ⟨hb, hs, hrest⟩
    exact ⟨(hbudget hs).1 hb, hs, hrest⟩
  · rintro ⟨hb, hs, hrest⟩
    exact ⟨(hbudget hs).2 hb, hs, hrest⟩

theorem alloc_error {size : UInt64} {f : Fault} (h : alloc size m = .error f m') :
    f = if m.limit.toNat < min (m.used + size.toNat) maxSize then
        .memoryLimitExceeded m.used m.limit.toNat
      else .invalidPointer m.next exhausted := by
  rw [alloc_apply] at h
  split at h
  · rename_i hb
    cases h
    exact (if_pos hb).symm
  · rename_i hb
    split at h
    · cases h
      exact (if_neg hb).symm
    · cases h

/-- What a region takes off the budget was put on it. -/
theorem Sound.used_of_free {u : Unit} (h : m.Sound) (hf : Memory.free a m = .ok u m') :
    ∃ r ∈ m.regions, r.base = a ∧ r.size ≤ m.used ∧ m'.used = m.used - r.size := by
  obtain ⟨r, hr, rfl⟩ := free_ok_iff.1 hf
  have hmem := List.mem_of_find?_eq_some hr
  refine ⟨r, hmem, by simpa using List.find?_some hr, ?_, rfl⟩
  rw [h.used_eq]
  exact List.single_le_sum (by simp) _ (List.mem_map.2 ⟨r, hmem, rfl⟩)

/-- What is in use is the sum of the sizes of the live regions, exactly, and stays within the limit.
A region is reserved if there is room for it in the budget and behind the next address. -/
theorem used_eq_sum_of_sizes (c : MemoryConfig) (requests : List Request) :
    let m := (new c).run requests
    let live := (m.regions.map (·.size)).sum
    m.used = live ∧ live ≤ c.maxBytes.toNat ∧
    (∀ size : UInt64,
      ((∃ a m', alloc size m = .ok a m') ↔ live + size.toNat ≤ c.maxBytes.toNat ∧
        m.next.toNat + max size.toNat 1 + 15 < UInt64.size) ∧
      (∀ a m', alloc size m = .ok a m' →
        live + size.toNat < UInt64.size ∧ m'.used = live + size.toNat) ∧
      ∀ f m', alloc size m = .error f m' → m' = m ∧
        f = if c.maxBytes.toNat < min (live + size.toNat) (UInt64.size - 1) then
            .memoryLimitExceeded live c.maxBytes.toNat
          else .invalidPointer m.next exhausted) ∧
    ∀ a m', free a m = .ok () m' →
      ∃ r ∈ m.regions, r.base = a ∧ r.size ≤ m.used ∧ m'.used = m.used - r.size := by
  intro m live
  have hm : m.Sound := (sound_new c).run
  have hlimit : m.limit = c.maxBytes := run_limit
  have hused : m.used = live := hm.used_eq
  rw [← hused, ← hlimit]
  refine ⟨rfl, hm.used_le, fun size => ⟨?_, ?_, ?_⟩, fun a m' => hm.used_of_free⟩
  · simp only [hm.alloc_ok_iff]
    constructor
    · rintro ⟨a, m', hb, hs, -, -⟩
      exact ⟨hb, hs⟩
    · rintro ⟨hb, hs⟩
      exact ⟨_, _, hb, hs, rfl, rfl⟩
  · intro a m' ha
    obtain ⟨-, hs, -, rfl⟩ := hm.alloc_ok_iff.1 ha
    exact ⟨hm.used_add_lt hs, rfl⟩
  · intro f m' ha
    exact ⟨final_alloc_of_error ha, alloc_error ha⟩

/-- A sum that saturates is no more than the largest budget; the address space refuses what it
stands for. -/
theorem largest_budget_refuses_saturated_sum :
    let m := (new ⟨0xFFFFFFFFFFFFFFFF, ⟨0x1000⟩⟩).run [.alloc 32, .alloc 8, .free ⟨0x1000⟩]
    m.used = 8 ∧ alloc 0xFFFFFFFFFFFFFFFF m = .error (.invalidPointer ⟨0x1030⟩ exhausted) m := by
  intro m
  obtain ⟨hused, -, hall, -⟩ := used_eq_sum_of_sizes ⟨0xFFFFFFFFFFFFFFFF, ⟨0x1000⟩⟩
    [.alloc 32, .alloc 8, .free ⟨0x1000⟩]
  have hlive : (m.regions.map (·.size)).sum = 8 := by decide
  obtain ⟨-, hok, herror⟩ := hall 0xFFFFFFFFFFFFFFFF
  refine ⟨hused.trans hlive, ?_⟩
  cases h : alloc 0xFFFFFFFFFFFFFFFF m with
  | ok a m' => exact absurd (hok a m' h).1 (by decide)
  | error f m' =>
    obtain ⟨rfl, rfl⟩ := herror f m' h
    have hbudget : ¬ (0xFFFFFFFFFFFFFFFF : UInt64).toNat <
        min ((m.regions.map (·.size)).sum + (0xFFFFFFFFFFFFFFFF : UInt64).toNat)
          (UInt64.size - 1) := by
      decide
    have hnext : m.next = ⟨0x1030⟩ := by decide
    rw [← hnext]
    exact congrArg (EStateM.Result.error · m) (if_neg hbudget)

end Memory

end Unwinding
