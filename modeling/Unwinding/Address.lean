import Unwinding.Numeral

/-! # Native addresses: 64-bit words, null at zero, offsets that wrap, one fixed text -/
namespace Unwinding

structure Address where
  word : UInt64
  deriving DecidableEq, Repr, Inhabited

namespace Address

def null : Address := ⟨0⟩

def isNull (a : Address) : Bool := a == null

def toNat (a : Address) : Nat := a.word.toNat

/-- Numbers beyond the last address wrap around. -/
def ofNat (n : Nat) : Address := ⟨UInt64.ofNat n⟩

/-- Moving past the last address wraps around to null. -/
def offset (a : Address) (distance : UInt64) : Address := ⟨a.word + distance⟩

instance : LE Address := ⟨fun a b => a.word ≤ b.word⟩

instance (a b : Address) : Decidable (a ≤ b) := inferInstanceAs (Decidable (a.word ≤ b.word))

instance : Ord Address := ⟨fun a b => compare a.word b.word⟩

theorem toNat_lt (a : Address) : a.toNat < UInt64.size := a.word.toNat_lt_size

theorem le_iff {a b : Address} : a ≤ b ↔ a.toNat ≤ b.toNat := UInt64.le_iff_toNat_le

@[simp] theorem toNat_ofNat (n : Nat) : (ofNat n).toNat = n % UInt64.size := UInt64.toNat_ofNat' ..

theorem toNat_inj {a b : Address} (h : a.toNat = b.toNat) : a = b := by
  cases a; cases b; exact congrArg mk (UInt64.toNat_inj.1 h)

@[simp] theorem ofNat_toNat (a : Address) : ofNat a.toNat = a := by
  cases a; exact congrArg mk UInt64.ofNat_toNat

theorem toNat_offset (a : Address) (d : UInt64) :
    (a.offset d).toNat = (a.toNat + d.toNat) % UInt64.size := UInt64.toNat_add ..

theorem isNull_iff {a : Address} : a.isNull = true ↔ a = null := by simp [isNull]

/-- Sixteen upper-case digits behind `0x`. -/
def text (a : Address) : String := String.ofList ('0' :: 'x' :: Numeral.paddedHex 16 a.toNat)

/-- As many upper-case digits as the value needs, behind `0x`. -/
def shortText (a : Address) : String := String.ofList ('0' :: 'x' :: Numeral.upperHex a.toNat)

/-- Reads `0x` and hexadecimal digits of either case, as long as the value is an address. -/
def ofText? (s : String) : Option Address :=
  match s.toList with
  | '0' :: 'x' :: c :: cs => do
    let n ← Numeral.hexValue? (c :: cs)
    if n < UInt64.size then some (ofNat n) else none
  | _ => none

end Address

end Unwinding
