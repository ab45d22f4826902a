import Unwinding.Proofs.Layout.Codec
import Unwinding.Proofs.Memory.Alignment
import Unwinding.Proofs.Memory.Placement

/-!
# Addresses as pointers

A memory knows no width of pointers. It is given a base that suits the width, and from there its
addresses grow with all that was ever reserved. A region lies within the reach of pointers as long as
what was reserved before it and its own size stay below what is left above the base.
-/
namespace Unwinding

namespace Region
variable {l : Layout} {r : Region}

/-- Each byte of the region has an address that a pointer can hold. -/
def WithinReach (r : Region) (l : Layout) : Prop :=
  ∀ a : Address, r.Covers a.toNat 1 → ∃ bs, l.encodePointer a = .ok bs

theorem withinReach_iff (hr : r.base.toNat + r.size < UInt64.size) :
    r.WithinReach l ↔ r.size = 0 ∨ r.base.toNat + r.size ≤ l.pointerBound := by
  simp only [WithinReach, Layout.encodePointer_ok_iff, exists_and_left, exists_eq, and_true]
  constructor
  · intro h
    refine Decidable.or_iff_not_imp_left.2 fun hsize => ?_
    -- no byte has a higher address than the last one
    have hlast : (Address.ofNat (r.base.toNat + r.size - 1)).toNat = r.base.toNat + r.size - 1 := by
      rw [Address.toNat_ofNat, Nat.mod_eq_of_lt (by omega)]
    have hcovers : r.Covers (Address.ofNat (r.base.toNat + r.size - 1)).toNat 1 := by
      rw [hlast]
      exact ⟨by omega, by omega⟩
    have hlt := h _ hcovers
    omega
  · rintro h a ⟨hlow, hhigh⟩
    omega

end Region

namespace Memory
variable {m m' : Memory} {a : Address}

/-- Where no region is empty, those that are never given back fill their places well enough for the
budget to bound the next address. -/
theorem toNat_next_le_of_kept (c : MemoryConfig) (requests : List Request)
    (h : alignment ∣ c.base.toNat) (hfree : ∀ b, .free b ∉ requests)
    (hempty : .alloc 0 ∉ requests) :
    ((new c).run requests).next.toNat ≤ c.base.toNat + alignment * c.maxBytes.toNat := by
  have hreserved := reserved_add_used_le (m := new c) hfree hempty
  have hsound : ((new c).run requests).Sound := (sound_new c).run
  have hused := hsound.used_le
  rw [run_limit] at hused
  calc ((new c).run requests).next.toNat
      = c.base.toNat + (new c).reserved requests := toNat_next_run h requests
    _ ≤ c.base.toNat + alignment * ((new c).run requests).used :=
      Nat.add_le_add_left (Nat.le_of_add_right_le hreserved) _
    _ ≤ c.base.toNat + alignment * c.maxBytes.toNat :=
      Nat.add_le_add_left (Nat.mul_le_mul_left _ hused) _

/-- The default budget is small enough for addresses that are bounded so. -/
theorem base_add_budget_le_pointerBound (l : Layout) : (MemoryConfig.baseFor l.width).toNat +
    alignment * (MemoryConfig.forWidth l.width).maxBytes.toNat ≤ l.pointerBound := by
  rw [Layout.pointerBound]
  cases l.width <;> decide

theorem stop_le_next_of_alloc {size : UInt64} (h : alloc size m = .ok a m') :
    (Region.zeroed a size.toNat).stop ≤ m'.next.toNat := by
  have hnext := next_add_span_le_nextAfter (m := m) size.toNat
  rw [← toNat_next_of_alloc h, ← (next_lt_of_alloc h).1] at hnext
  exact hnext

/-- A region lies above the base by what the requests before took up. With default settings it is
within the reach of pointers exactly where this distance and its size leave room for it, and always
where nothing is given back and no region is empty. -/
theorem withinReach_of_granted_iff (l : Layout) (requests : List Request) (size : UInt64)
    (a : Address) (m' : Memory)
    (h : alloc size ((new (.forWidth l.width)).run requests) = .ok a m') :
    let base := (MemoryConfig.baseFor l.width).toNat
    let distance := (new (.forWidth l.width)).reserved requests
    let r := Region.zeroed a size.toNat
    r ∈ m'.regions ∧ a.toNat = base + distance ∧
    (r.WithinReach l ↔ size = 0 ∨ base + distance + size.toNat ≤ l.pointerBound) ∧
    ((∀ b, .free b ∉ requests) → .alloc 0 ∉ requests → r.WithinReach l) := by
  intro base distance r
  have haligned : alignment ∣ base := alignment_dvd_baseFor l.width
  have hstop := stop_le_next_of_alloc h
  have hend := r.size_le_stop
  have hreach : r.WithinReach l ↔ r.size = 0 ∨ r.base.toNat + r.size ≤ l.pointerBound :=
    Region.withinReach_iff (Nat.lt_of_le_of_lt (Nat.le_trans hend hstop) m'.next.toNat_lt)
  obtain ⟨-, -, hnext, hm'⟩ := alloc_ok_iff.1 h
  have hplace : a.toNat = base + distance := by
    rw [hnext]
    exact toNat_next_run haligned requests
  have hsize : r.size = 0 ↔ size = 0 := UInt64.toNat_inj (b := 0)
  refine ⟨?_, hplace, ?_, fun hfree hempty => hreach.2 ?_⟩
  · rw [hm', ← hnext]
    exact List.mem_cons_self
  · rw [hreach, hsize, ← hplace]
    rfl
  · -- the allocation is one more request that gives nothing back
    refine Decidable.or_iff_not_imp_left.2 fun hne => ?_
    have hrun : (new (.forWidth l.width)).run (requests ++ [.alloc size]) = m' := by
      rw [run_append]
      exact congrArg Action.final h
    have hkept := toNat_next_le_of_kept (.forWidth l.width) (requests ++ [.alloc size]) haligned
      (by simpa using hfree) (by simpa [hempty, eq_comm] using mt hsize.2 hne)
    rw [hrun] at hkept
    exact hend.trans (hstop.trans (hkept.trans (base_add_budget_le_pointerBound l)))

/-- Between regions that are given back one by one, the addresses come to the last pointer and go on
behind it. -/
theorem withinReach_at_last_pointer :
    let l : Layout := ⟨.bits32, .big⟩
    let m := (new (.forWidth .bits32)).run (turnover (MemoryConfig.baseFor .bits32) 0x1000000 128)
    let kept := (new (.forWidth .bits32)).run [.alloc 0x1000001, .alloc 5]
    (∃ m', alloc 0xF000 m = .ok ⟨0xFFFF1000⟩ m' ∧
      (Region.zeroed ⟨0xFFFF1000⟩ 0xF000).WithinReach l) ∧
    (∃ m', alloc 0xF001 m = .ok ⟨0xFFFF1000⟩ m' ∧
      ¬ (Region.zeroed ⟨0xFFFF1000⟩ 0xF001).WithinReach l) ∧
    ∃ m', alloc 0xFFFFFB kept = .ok ⟨0x7FFF1010⟩ m' ∧
      (Region.zeroed ⟨0x7FFF1010⟩ 0xFFFFFB).WithinReach l := by
  intro l m kept
  have hfits : m.granted? (.alloc 0xF000) = some ⟨0xFFFF1000⟩ := by decide +kernel
  have hexceeds : m.granted? (.alloc 0xF001) = some ⟨0xFFFF1000⟩ := by decide +kernel
  have hkept : kept.granted? (.alloc 0xFFFFFB) = some ⟨0x7FFF1010⟩ := by decide
  obtain ⟨m₁, h₁⟩ := granted?_alloc_eq_some_iff.1 hfits
  obtain ⟨m₂, h₂⟩ := granted?_alloc_eq_some_iff.1 hexceeds
  obtain ⟨m₃, h₃⟩ := granted?_alloc_eq_some_iff.1 hkept
  obtain ⟨-, hplace₁, hreach₁, -⟩ := withinReach_of_granted_iff l _ _ _ _ h₁
  obtain ⟨-, hplace₂, hreach₂, -⟩ := withinReach_of_granted_iff l _ _ _ _ h₂
  obtain ⟨-, -, -, hreach₃⟩ := withinReach_of_granted_iff l _ _ _ _ h₃
  rw [← hplace₁] at hreach₁
  rw [← hplace₂] at hreach₂
  exact ⟨⟨m₁, h₁, hreach₁.2 (by decide)⟩, ⟨m₂, h₂, fun h => absurd (hreach₂.1 h) (by decide)⟩,
    m₃, h₃, hreach₃ (by simp) (by simp)⟩

/-- Memory with default settings for 32-bit pointers does not keep its regions within their reach. -/
theorem granted_beyond_reach :
    ¬ ∀ requests size a m', alloc size ((new (.forWidth .bits32)).run requests) = .ok a m' →
      (Region.zeroed a size.toNat).WithinReach ⟨.bits32, .little⟩ := by
  intro hall
  have hgranted : ((new (.forWidth .bits32)).run
      (turnover (MemoryConfig.baseFor .bits32) 0x1000000 128)).granted? (.alloc 0x1000000) =
        some ⟨0xFFFF1000⟩ := by
    decide +kernel
  obtain ⟨m', h⟩ := granted?_alloc_eq_some_iff.1 hgranted
  obtain ⟨bs, hbs⟩ := hall _ _ _ _ h ⟨0x100000000⟩ (by decide)
  exact absurd (Layout.encodePointer_ok_iff.1 hbs).1 (by decide)

end Memory

end Unwinding
