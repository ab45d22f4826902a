import Unwinding.Address

/-! # Selectors: the signed 32-bit numbers that name the clause which matched -/
namespace Unwinding

structure Selector where
  code : Int32
  deriving DecidableEq, Repr

namespace Selector

/-- No match. -/
def none : Selector := ⟨0⟩

/-- The match of a catch clause without a type. -/
def catchAll : Selector := ⟨1⟩

/-- The match of a filter clause. -/
def filter : Selector := ⟨-1⟩

/-- The low 32 bits of the type's address, read in two's complement. -/
def ofType (a : Address) : Selector := ⟨a.word.toUInt32.toInt32⟩

def isMatch (s : Selector) : Bool := s != none

theorem isMatch_iff {s : Selector} : s.isMatch = true ↔ s ≠ none := by simp [isMatch]

@[simp] theorem isMatch_none : none.isMatch = false := rfl

/-- An address names a match unless its low word is zero. -/
theorem isMatch_ofType_iff {a : Address} :
    (ofType a).isMatch = true ↔ a.toNat % UInt32.size ≠ 0 := by
  have hword : a.word.toUInt32.toInt32 = 0 ↔ a.word.toUInt32 = 0 := by
    constructor
    · exact fun h => UInt32.toBitVec_inj.1 (congrArg Int32.toBitVec h)
    · intro h
      rw [h]
      rfl
  have hlow : a.word.toUInt32 = 0 ↔ a.toNat % UInt32.size = 0 := by
    rw [← UInt32.toNat_inj, UInt64.toNat_toUInt32]
    rfl
  rw [isMatch_iff, ofType, none, ne_eq, Selector.mk.injEq, hword, hlow]

theorem toInt_ofType (a : Address) : (ofType a).code.toInt = Int.bmod a.toNat UInt32.size := by
  have hcode : (ofType a).code.toInt = Int.bmod a.word.toUInt32.toNat UInt32.size :=
    BitVec.toInt_eq_toNat_bmod _
  rw [hcode, UInt64.toNat_toUInt32, Int.natCast_emod]
  exact Int.emod_bmod _ _

/-- A selector is known by its number. -/
theorem eq_ofType_iff {v : Selector} {a : Address} :
    v = ofType a ↔ v.code.toInt = Int.bmod a.toNat UInt32.size := by
  rw [← toInt_ofType, Int32.toInt_inj]
  exact ⟨congrArg code, fun h => congrArg mk h⟩

theorem ofType_eq_none_iff {a : Address} : ofType a = none ↔ a.toNat % UInt32.size = 0 := by
  rw [← Decidable.not_iff_not, ← ne_eq, ← isMatch_iff, isMatch_ofType_iff]

def text (s : Selector) : String := String.ofList (Numeral.signed s.code.toInt)

end Selector

instance : Inhabited Selector := ⟨Selector.none⟩

end Unwinding
