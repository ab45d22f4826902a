import Unwinding.Proofs.Memory.Allocation

/-!
# Alignment

Behind each allocation the next address is rounded up, whatever the size of the allocation. Nothing
rounds the base: it is the first address that is handed out, as it stands in the configuration. So
that one can lie anywhere, and all that come after it are multiples of the alignment.
-/
namespace Unwinding

namespace Memory
variable {m m' : Memory} {a : Address} {answer : Option Address} {requests : List Request}

theorem alignment_dvd_nextAfter (base : Address) (size : Nat) : alignment ∣ nextAfter base size :=
  Nat.dvd_mul_left _ _

theorem alignment_dvd_baseFor (w : Width) : alignment ∣ (MemoryConfig.baseFor w).toNat := by
  cases w <;> decide

/-! ## One request -/

/-- The next address is the one that a request hands out, and moves on only then. -/
theorem Served.next_cases (h : m.Served answer m') :
    answer = none ∧ m'.next = m.next ∨ answer = some m.next ∧ alignment ∣ m'.next.toNat := by
  cases h with
  | refused h => exact .inl ⟨rfl, h.next⟩
  | alloc h =>
    obtain ⟨rfl, -⟩ := next_lt_of_alloc h
    refine .inr ⟨rfl, ?_⟩
    rw [toNat_next_of_alloc h]
    exact alignment_dvd_nextAfter _ _
  | free h =>
    obtain ⟨-, -, rfl⟩ := free_ok_iff.1 h
    exact .inl ⟨rfl, rfl⟩
  | write h =>
    obtain ⟨-, -, -, rfl⟩ := write_ok_iff.1 h
    exact .inl ⟨rfl, rfl⟩

/-! ## A row of requests -/

theorem alignment_dvd_of_granted (h : alignment ∣ m.next.toNat) (ha : a ∈ m.granted requests) :
    alignment ∣ a.toNat := by
  induction requests generalizing m with
  | nil => simp [granted] at ha
  | cons r rs ih =>
    rw [granted] at ha
    rcases (m.served r).next_cases with ⟨hnone, hnext⟩ | ⟨hsome, hnext⟩
    · rw [hnone] at ha
      exact ih (hnext ▸ h) ha
    · rw [hsome] at ha
      rcases List.mem_cons.1 ha with rfl | ha
      · exact h
      · exact ih hnext ha

/-- Requests that hand out nothing leave the next address where it is. -/
theorem granted_cases (m : Memory) (requests : List Request) : m.granted requests = [] ∨
    ∃ later, m.granted requests = m.next :: later ∧ ∀ a ∈ later, alignment ∣ a.toNat := by
  -- up to the first address nothing is known of the next one but that it stays
  induction requests generalizing m with
  | nil => exact .inl rfl
  | cons r rs ih =>
    rw [granted]
    rcases (m.served r).next_cases with ⟨hnone, hnext⟩ | ⟨hsome, hnext⟩
    · rw [hnone, ← hnext]
      exact ih (m.step r)
    · rw [hsome]
      exact .inr ⟨_, rfl, fun a => alignment_dvd_of_granted hnext⟩

/-- The first address that is handed out is the base, and the others are multiples of sixteen. So if
any is handed out, all are multiples of sixteen exactly where the base is one, as it is by default. -/
theorem granted_aligned_behind_base (c : MemoryConfig) (requests : List Request) :
    let granted := (new c).granted requests
    (granted = [] ∨ ∃ later, granted = c.base :: later ∧ ∀ a ∈ later, 16 ∣ a.toNat) ∧
    ((∀ a ∈ granted, 16 ∣ a.toNat) ↔ granted = [] ∨ 16 ∣ c.base.toNat) ∧
    ∀ w, c.base = MemoryConfig.baseFor w → ∀ a ∈ granted, 16 ∣ a.toNat := by
  intro granted
  have hcases : granted = [] ∨
      ∃ later, granted = c.base :: later ∧ ∀ a ∈ later, 16 ∣ a.toNat := granted_cases (new c) requests
  have hall : (∀ a ∈ granted, 16 ∣ a.toNat) ↔ granted = [] ∨ 16 ∣ c.base.toNat := by
    rcases hcases with hnil | ⟨later, hgranted, hlater⟩
    · simp [hnil]
    · rw [hgranted, List.forall_mem_cons, and_iff_left hlater]
      simp
  refine ⟨hcases, hall, fun w hw => hall.2 (.inr ?_)⟩
  rw [hw]
  exact alignment_dvd_baseFor w

/-- Above an odd base and above that for 32-bit pointers: one request is refused, and one region is
empty and given back. -/
theorem granted_above_odd_base :
    let c : MemoryConfig := ⟨100, ⟨0x1001⟩⟩
    let requests (base : Address) : List Request :=
      [.alloc 0x1000001, .alloc 0, .free base, .alloc 20, .alloc 5]
    (new c).granted (requests c.base) = [⟨0x1001⟩, ⟨0x1010⟩, ⟨0x1030⟩] ∧
      ¬ (∀ a ∈ (new c).granted (requests c.base), 16 ∣ a.toNat) ∧
      ∀ a ∈ (new (.forWidth .bits32)).granted (requests (MemoryConfig.baseFor .bits32)),
        16 ∣ a.toNat := by
  intro c requests
  obtain ⟨-, hall, -⟩ := granted_aligned_behind_base c (requests c.base)
  obtain ⟨-, -, hbase⟩ := granted_aligned_behind_base (.forWidth .bits32)
    (requests (MemoryConfig.baseFor .bits32))
  have hgranted : (new c).granted (requests c.base) = [⟨0x1001⟩, ⟨0x1010⟩, ⟨0x1030⟩] := by decide
  refine ⟨hgranted, ?_, hbase .bits32 rfl⟩
  rw [hall, hgranted]
  decide

/-- The first region of a memory starts at an odd address if the base is odd. -/
theorem granted_unaligned_base :
    ¬ ∀ a ∈ (new ⟨100, ⟨0x1001⟩⟩).granted [.alloc 1], 16 ∣ a.toNat := by decide

end Memory

end Unwinding
