import Unwinding.Proofs.Memory.Allocation

/-!
# Where allocations are placed

Above an aligned base, allocations lie one behind the other, each taking up its size rounded up to
the alignment, and a region that is given back leaves its place empty. So an address that is handed
out lies as far above the base as all allocations before it have taken up together. The budget
bounds that distance only where nothing is given back and no region is empty; otherwise the
addresses wander upwards without end, and some of them have no low word left to serve as a selector.
-/
namespace Unwinding

namespace Memory

/-- How far an allocation is from the next one. -/
def footprint (size : Nat) : Nat := (span size + (alignment - 1)) / alignment * alignment

/-- How much of the address space a request takes up. -/
def taken (m : Memory) (r : Request) : Nat :=
  match r, m.granted? r with
  | .alloc size, some _ => footprint size.toNat
  | _, _ => 0

/-- How much of the address space a row of requests takes up, given back or not. -/
def reserved (m : Memory) : List Request → Nat
  | [] => 0
  | r :: rs => m.taken r + (m.step r).reserved rs

variable {m m' : Memory} {a : Address} {requests : List Request}

theorem footprint_le {size : Nat} (h : size ≠ 0) : footprint size ≤ alignment * size := by
  unfold footprint alignment span
  omega

theorem nextAfter_of_aligned {base : Address} (h : alignment ∣ base.toNat) (size : Nat) :
    nextAfter base size = base.toNat + footprint size := by
  unfold nextAfter footprint alignment at *
  omega

/-! ## One request -/

theorem granted?_alloc_eq_some_iff {size : UInt64} :
    m.granted? (.alloc size) = some a ↔ ∃ m', alloc size m = .ok a m' := by
  rw [granted?]
  cases alloc size m <;> simp

theorem taken_alloc_of_ok {size : UInt64} (h : alloc size m = .ok a m') :
    m.taken (.alloc size) = footprint size.toNat := by
  simp [taken, granted?, h]

theorem taken_alloc_of_error {size : UInt64} {f : Fault} (h : alloc size m = .error f m') :
    m.taken (.alloc size) = 0 := by
  simp [taken, granted?, h]

/-- The next address moves up by what a request takes up, and by nothing else. -/
theorem toNat_next_step (h : alignment ∣ m.next.toNat) (r : Request) :
    (m.step r).next.toNat = m.next.toNat + m.taken r := by
  cases r with
  | alloc size =>
    rw [step]
    cases ha : alloc size m with
    | ok a m' =>
      rw [taken_alloc_of_ok ha, ← nextAfter_of_aligned h]
      exact toNat_next_of_alloc ha
    | error f m' =>
      rw [taken_alloc_of_error ha, Action.final, final_alloc_of_error ha, Nat.add_zero]
  | free a =>
    rw [step, free_apply]
    cases m.regions.find? (·.base = a) <;> rfl
  | write a data =>
    rw [step, write_apply]
    cases m.locate a data.length <;> rfl

/-- A request that gives nothing back and puts a region of some size takes up no more than the
alignment allows for that size. -/
theorem taken_add_used_le {r : Request} (hfree : ∀ a, r ≠ .free a) (hempty : r ≠ .alloc 0) :
    m.taken r + alignment * m.used ≤ alignment * (m.step r).used := by
  cases r with
  | alloc size =>
    rw [step]
    cases ha : alloc size m with
    | ok a m' =>
      have hsize : size.toNat ≠ 0 := fun h =>
        hempty (congrArg Request.alloc (UInt64.toNat_inj.1 (h.trans UInt64.toNat_zero.symm)))
      have hle := footprint_le hsize
      obtain ⟨-, -, -, rfl⟩ := alloc_ok_iff.1 ha
      rw [taken_alloc_of_ok ha, Action.final, Nat.mul_add]
      omega
    | error f m' =>
      rw [taken_alloc_of_error ha, Action.final, final_alloc_of_error ha, Nat.zero_add]
  | free a => exact absurd rfl (hfree a)
  | write a data =>
    rw [step, write_apply]
    cases m.locate a data.length <;> exact Nat.le_of_eq (Nat.zero_add _)

/-! ## A row of requests -/

theorem toNat_next_run (h : alignment ∣ m.next.toNat) (requests : List Request) :
    (m.run requests).next.toNat = m.next.toNat + m.reserved requests := by
  induction requests generalizing m with
  | nil => rfl
  | cons r rs ih =>
    have hstep := toNat_next_step h r
    have htaken : alignment ∣ m.taken r := by
      unfold taken
      split
      · exact Nat.dvd_mul_left _ _
      · exact Nat.dvd_zero _
    rw [reserved, ← Nat.add_assoc, ← hstep]
    exact ih (hstep ▸ Nat.dvd_add h htaken)

theorem reserved_add_used_le (hfree : ∀ a, .free a ∉ requests) (hempty : .alloc 0 ∉ requests) :
    m.reserved requests + alignment * m.used ≤ alignment * (m.run requests).used := by
  induction requests generalizing m with
  | nil => simp [reserved, run]
  | cons r rs ih =>
    have hstep := taken_add_used_le (m := m) (r := r)
      (fun a h => hfree a (h ▸ List.mem_cons_self)) (fun h => hempty (h ▸ List.mem_cons_self))
    have hrest := ih (m := m.step r) (fun a h => hfree a (List.mem_cons_of_mem r h))
      (fun h => hempty (List.mem_cons_of_mem r h))
    rw [reserved]
    change _ ≤ alignment * ((m.step r).run rs).used
    omega

/-! ## Addresses as selectors -/

/-- With default settings, an address that is handed out lies above the base by what the requests
before took up, and names a match unless this leads to a multiple of the low word's range. So it
does until that much is taken up, and always where nothing is given back and no region is empty. -/
theorem isMatch_of_granted_iff (w : Width) (requests : List Request) (size : UInt64) (a : Address)
    (m' : Memory) (h : alloc size ((new (.forWidth w)).run requests) = .ok a m') :
    let base := (MemoryConfig.baseFor w).toNat
    let distance := (new (.forWidth w)).reserved requests
    a.toNat = base + distance ∧
    ((Selector.ofType a).isMatch = true ↔ ¬ UInt32.size ∣ base + distance) ∧
    (base % UInt32.size + distance < UInt32.size → (Selector.ofType a).isMatch = true) ∧
    ((∀ b, .free b ∉ requests) → .alloc 0 ∉ requests → (Selector.ofType a).isMatch = true) := by
  intro base distance
  have hbase : base % UInt32.size ≠ 0 ∧
      base % UInt32.size + alignment * (MemoryConfig.forWidth w).maxBytes.toNat < UInt32.size := by
    cases w <;> decide
  have haligned : alignment ∣ (new (.forWidth w)).next.toNat := by
    cases w <;> decide
  have hplace : a.toNat = base + distance := by
    obtain ⟨-, -, rfl, -⟩ := alloc_ok_iff.1 h
    exact toNat_next_run haligned requests
  have hmatch : (Selector.ofType a).isMatch = true ↔ ¬ UInt32.size ∣ base + distance := by
    rw [Selector.isMatch_ofType_iff, hplace, Nat.dvd_iff_mod_eq_zero]
  have hnear : base % UInt32.size + distance < UInt32.size →
      (Selector.ofType a).isMatch = true := by
    intro hlt
    rw [hmatch, Nat.dvd_iff_mod_eq_zero, ← Nat.mod_add_mod, Nat.mod_eq_of_lt hlt]
    omega
  refine ⟨hplace, hmatch, hnear, fun hfree hempty => hnear ?_⟩
  have hreserved := reserved_add_used_le (m := new (.forWidth w)) hfree hempty
  have hsound : ((new (.forWidth w)).run requests).Sound := (sound_new _).run
  have hused := hsound.used_le
  rw [run_limit] at hused
  have hlimit : distance ≤ alignment * (MemoryConfig.forWidth w).maxBytes.toNat :=
    Nat.le_trans (Nat.le_of_add_right_le hreserved) (Nat.mul_le_mul_left _ hused)
  omega

/-- Regions of one size, each given back before the next is reserved. -/
def turnover (base : Address) (size : UInt64) (n : Nat) : List Request :=
  (List.range n).flatMap fun k => [.alloc size, .free (base.offset (.ofNat k * size))]

/-- Never more than the budget is live, but the addresses move on to the next multiple. -/
theorem turnover_leaves_no_match :
    let requests := turnover (MemoryConfig.baseFor .bits64) 0x1000000 255 ++
      [.alloc 0xFFF000, .free ⟨0x7FFFFF001000⟩]
    ∃ m', alloc 16 ((new (.forWidth .bits64)).run requests) = .ok ⟨0x800000000000⟩ m' ∧
      (Selector.ofType ⟨0x800000000000⟩).isMatch = false := by
  intro requests
  have hgranted : ((new (.forWidth .bits64)).run requests).granted? (.alloc 16) =
      some ⟨0x800000000000⟩ := by decide +kernel
  obtain ⟨m', h⟩ := granted?_alloc_eq_some_iff.1 hgranted
  obtain ⟨hplace, hmatch, -⟩ := isMatch_of_granted_iff .bits64 requests 16 _ m' h
  refine ⟨m', h, Bool.eq_false_iff.2 fun hm => hmatch.1 hm ?_⟩
  rw [← hplace]
  decide

/-- Memory with default settings for 32-bit pointers does not keep its addresses apart from the
selector of no match. -/
theorem granted_without_match :
    let requests := turnover (MemoryConfig.baseFor .bits32) 0x1000000 128 ++
      [.alloc 0xF000, .free ⟨0xFFFF1000⟩, .alloc 16]
    ¬ ∀ a ∈ (new (.forWidth .bits32)).granted requests, (Selector.ofType a).isMatch = true := by
  intro requests hall
  have hgranted : ⟨0x100000000⟩ ∈ (new (.forWidth .bits32)).granted requests := by decide +kernel
  exact absurd (hall _ hgranted) (by decide)

end Memory

end Unwinding
