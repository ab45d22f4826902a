/-! # Finite tables: the last value put under a key is the one that is found -/
namespace Unwinding

structure Table (κ α : Type) where
  entries : List (κ × α) := []
  deriving DecidableEq, Repr, Inhabited

namespace Table
variable {κ α : Type} [DecidableEq κ]

def empty : Table κ α := {}

def find? (t : Table κ α) (k : κ) : Option α := (t.entries.find? (·.1 = k)).map (·.2)

def erase (t : Table κ α) (k : κ) : Table κ α := ⟨t.entries.filter (·.1 ≠ k)⟩

/-- Puts `v` under `k`, in place of what was there. -/
def insert (t : Table κ α) (k : κ) (v : α) : Table κ α := ⟨(k, v) :: (t.erase k).entries⟩

def contains (t : Table κ α) (k : κ) : Bool := (t.find? k).isSome

def keys (t : Table κ α) : List κ := t.entries.map (·.1)

def size (t : Table κ α) : Nat := t.entries.length

@[simp] theorem find?_empty (k : κ) : (empty : Table κ α).find? k = none := rfl

@[simp] theorem find?_erase_self (t : Table κ α) (k : κ) : (t.erase k).find? k = none := by
  simp [find?, erase]

theorem find?_erase_of_ne (t : Table κ α) {j k : κ} (h : j ≠ k) :
    (t.erase k).find? j = t.find? j := by
  simp only [find?, erase, List.find?_filter]
  congr 2
  funext e
  by_cases he : e.1 = j <;> simp [he, h]

@[simp] theorem find?_insert_self (t : Table κ α) (k : κ) (v : α) :
    (t.insert k v).find? k = some v := by simp [find?, insert]

theorem find?_insert_of_ne (t : Table κ α) {j k : κ} (h : j ≠ k) (v : α) :
    (t.insert k v).find? j = t.find? j := by
  rw [← t.find?_erase_of_ne h]
  simp [find?, insert, Ne.symm h]

theorem find?_insert (t : Table κ α) (j k : κ) (v : α) :
    (t.insert k v).find? j = if j = k then some v else t.find? j := by
  split
  · subst j; simp
  · rename_i h; exact t.find?_insert_of_ne h v

theorem mem_keys_iff {t : Table κ α} {k : κ} : k ∈ t.keys ↔ (t.find? k).isSome := by
  simp [keys, find?, List.find?_isSome]

theorem find?_eq_none {t : Table κ α} {k : κ} (h : k ∉ t.keys) : t.find? k = none := by
  rw [mem_keys_iff] at h
  simpa using h

end Table

end Unwinding
