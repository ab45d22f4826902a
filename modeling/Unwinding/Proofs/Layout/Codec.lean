import Mathlib
import Unwinding.Layout

/-!
# Encoding and decoding

The digits of a number to base 256 and the number that they stand for determine each other. Hence a
pointer or an integer is the one that its bytes decode to, in each of the four layouts, and bytes
that can be decoded are those of the pointer or integer that they decode to.
-/
namespace Unwinding

theorem ofLittleEndian_littleEndian (n v : Nat) :
    ofLittleEndian (littleEndian n v) = v % 256 ^ n := by
  induction n generalizing v with
  | zero => simp [littleEndian, ofLittleEndian, Nat.mod_one]
  | succ n ih =>
    rw [littleEndian, ofLittleEndian, ih, Nat.pow_succ', Nat.mod_mul]
    simp

theorem ofLittleEndian_lt (bs : List UInt8) : ofLittleEndian bs < 256 ^ bs.length := by
  induction bs with
  | nil => exact Nat.one_pos
  | cons b bs ih =>
    have hb := b.toNat_lt
    rw [ofLittleEndian, List.length_cons, Nat.pow_succ]
    omega

theorem littleEndian_ofLittleEndian (bs : List UInt8) :
    littleEndian bs.length (ofLittleEndian bs) = bs := by
  induction bs with
  | nil => rfl
  | cons b bs ih =>
    have hb := b.toNat_lt
    have hlow : UInt8.ofNat (b.toNat + 256 * ofLittleEndian bs) = b := by
      apply UInt8.toNat_inj.1
      rw [UInt8.toNat_ofNat']
      omega
    have hhigh : (b.toNat + 256 * ofLittleEndian bs) / 256 = ofLittleEndian bs := by omega
    rw [List.length_cons, ofLittleEndian, littleEndian, hlow, hhigh, ih]

namespace Layout
variable {l : Layout} {a : Address} {bs : List UInt8}

/-! ## From values to bytes -/

theorem pointerSize_cases (l : Layout) : l.pointerSize = 4 ∨ l.pointerSize = 8 := by
  unfold pointerSize
  cases l.width <;> simp [Width.bytes]

theorem pointerSize_pos (l : Layout) : 0 < l.pointerSize := by
  have h := l.pointerSize_cases
  omega

theorem pointerBound_eq (l : Layout) : l.pointerBound = 256 ^ l.pointerSize := by
  unfold pointerBound pointerSize
  cases l.width <;> rfl

theorem encodePointer_ok_iff : l.encodePointer a = .ok bs ↔
    a.toNat < l.pointerBound ∧ bs = l.endian.arrange (littleEndian l.pointerSize a.toNat) := by
  rw [encodePointer]
  split
  · rename_i h
    simp [h, eq_comm]
  · rename_i h
    simp [h]

/-- Only a 32-bit pointer can be too narrow for an address. -/
theorem encodePointer_error_iff {f : Fault} : l.encodePointer a = .error f ↔
    l.width = .bits32 ∧ UInt32.size ≤ a.toNat ∧ f = .addressOutOfRange a 32 := by
  rw [encodePointer, pointerBound, pointerSize]
  cases l.width with
  | bits32 =>
    by_cases h : a.toNat < UInt32.size
    · simp [h]
    · simp [h, Nat.le_of_not_lt h, Width.bytes, eq_comm]
  | bits64 => simp [a.toNat_lt]

theorem length_of_encodePointer (h : l.encodePointer a = .ok bs) : bs.length = l.pointerSize := by
  obtain ⟨-, rfl⟩ := encodePointer_ok_iff.1 h
  simp

@[simp] theorem length_encodeInt32 (l : Layout) (v : Int32) : (l.encodeInt32 v).length = 4 := by
  simp [encodeInt32]

theorem value_of_encodePointer (h : l.encodePointer a = .ok bs) :
    ofLittleEndian (l.endian.arrange bs) = a.toNat := by
  obtain ⟨ha, rfl⟩ := encodePointer_ok_iff.1 h
  rw [pointerBound_eq] at ha
  rw [Endian.arrange_arrange, ofLittleEndian_littleEndian, Nat.mod_eq_of_lt ha]

theorem value_encodeInt32 (l : Layout) (v : Int32) :
    ofLittleEndian (l.endian.arrange (l.encodeInt32 v)) = v.toUInt32.toNat := by
  have hv : v.toUInt32.toNat < 256 ^ 4 := v.toUInt32.toNat_lt
  rw [encodeInt32, Endian.arrange_arrange, ofLittleEndian_littleEndian, Nat.mod_eq_of_lt hv]

theorem pointerBound_le (l : Layout) : l.pointerBound ≤ UInt64.size := by
  unfold pointerBound
  cases l.width <;> decide

theorem exists_encodePointer_iff :
    (∃ bs, l.encodePointer a = .ok bs) ↔ a.toNat < 2 ^ 32 ∨ l.width = .bits64 := by
  simp only [encodePointer_ok_iff, exists_and_left, exists_eq, and_true, pointerBound]
  cases l.width with
  | bits32 => simp [UInt32.size]
  | bits64 => simp [a.toNat_lt]

/-- In two's complement the digits stand for the integer up to a multiple of the word size. -/
theorem ofLittleEndian_encodeInt32 (w : Width) (v : Int32) :
    (ofLittleEndian (encodeInt32 ⟨w, .little⟩ v) : Int) = v.toInt % UInt32.size := by
  have hvalue : ofLittleEndian (encodeInt32 ⟨w, .little⟩ v) = v.toUInt32.toNat :=
    value_encodeInt32 ⟨w, .little⟩ v
  have hint : v.toInt = Int.bmod v.toUInt32.toNat UInt32.size := BitVec.toInt_eq_toNat_bmod _
  have hlt : (v.toUInt32.toNat : Int) < UInt32.size := by exact_mod_cast v.toUInt32.toNat_lt
  rw [hvalue, hint, Int.bmod_emod, Int.emod_eq_of_lt (Int.natCast_nonneg _) hlt]

/-- The byte orders refuse the same addresses, with the same fault. -/
theorem encodePointer_big (w : Width) (a : Address) :
    encodePointer ⟨w, .big⟩ a = (encodePointer ⟨w, .little⟩ a).map List.reverse := by
  have hbound : pointerBound ⟨w, .big⟩ = pointerBound ⟨w, .little⟩ := rfl
  rw [encodePointer, encodePointer, hbound]
  split <;> rfl

/-! ## From bytes to values -/

theorem decodePointer_ok_iff : l.decodePointer bs = .ok a ↔
    bs.length = l.pointerSize ∧ a = .ofNat (ofLittleEndian (l.endian.arrange bs)) := by
  rw [decodePointer]
  split
  · rename_i h
    simp [h, eq_comm]
  · rename_i h
    simp [h]

theorem decodeInt32_ok_iff {v : Int32} : l.decodeInt32 bs = .ok v ↔
    bs.length = 4 ∧ v = (UInt32.ofNat (ofLittleEndian (l.endian.arrange bs))).toInt32 := by
  rw [decodeInt32]
  split
  · rename_i h
    simp [h, eq_comm]
  · rename_i h
    simp [h]

theorem decodePointer_of_encodePointer (h : l.encodePointer a = .ok bs) :
    l.decodePointer bs = .ok a := by
  rw [decodePointer_ok_iff, value_of_encodePointer h, Address.ofNat_toNat]
  exact ⟨length_of_encodePointer h, rfl⟩

theorem decodeInt32_encodeInt32 (l : Layout) (v : Int32) :
    l.decodeInt32 (l.encodeInt32 v) = .ok v := by
  rw [decodeInt32_ok_iff, value_encodeInt32, UInt32.ofNat_toNat]
  exact ⟨length_encodeInt32 l v, rfl⟩

/-- Bytes put in order, read as a number and written again are the bytes. -/
private theorem arrange_littleEndian (e : Endian) {n : Nat} (h : bs.length = n) :
    e.arrange (littleEndian n (ofLittleEndian (e.arrange bs))) = bs := by
  rw [← h, ← e.length_arrange bs, littleEndian_ofLittleEndian, Endian.arrange_arrange]

theorem encodePointer_of_decodePointer (h : l.decodePointer bs = .ok a) :
    l.encodePointer a = .ok bs := by
  obtain ⟨hlen, rfl⟩ := decodePointer_ok_iff.1 h
  have hlt := ofLittleEndian_lt (l.endian.arrange bs)
  rw [Endian.length_arrange, hlen, ← pointerBound_eq] at hlt
  have hword := Nat.lt_of_lt_of_le hlt l.pointerBound_le
  rw [encodePointer_ok_iff, Address.toNat_ofNat, Nat.mod_eq_of_lt hword]
  exact ⟨hlt, (arrange_littleEndian l.endian hlen).symm⟩

theorem encodeInt32_of_decodeInt32 {v : Int32} (h : l.decodeInt32 bs = .ok v) :
    l.encodeInt32 v = bs := by
  obtain ⟨hlen, rfl⟩ := decodeInt32_ok_iff.1 h
  have hlt := ofLittleEndian_lt (l.endian.arrange bs)
  rw [Endian.length_arrange, hlen] at hlt
  have hword : ofLittleEndian (l.endian.arrange bs) < UInt32.size := hlt
  rw [encodeInt32, UInt32.toUInt32_toInt32, UInt32.toNat_ofNat', Nat.mod_eq_of_lt hword]
  exact arrange_littleEndian l.endian hlen

/-- Pointers and integers have one encoding each in a layout, and each run of bytes of the right
length is the encoding of one. The little-endian bytes are the digits of the value, the big-endian
ones the same in reverse. -/
theorem codecs_invert_each_other (l : Layout) :
    ((∀ a, (∃ bs, l.encodePointer a = .ok bs) ↔ a.toNat < 2 ^ 32 ∨ l.width = .bits64) ∧
      (∀ a bs, l.encodePointer a = .ok bs → bs.length = l.pointerSize) ∧
      (∀ bs, (∃ a, l.decodePointer bs = .ok a) ↔ bs.length = l.pointerSize) ∧
      ∀ a bs, l.encodePointer a = .ok bs ↔ l.decodePointer bs = .ok a) ∧
    ((∀ v, (l.encodeInt32 v).length = 4) ∧
      (∀ bs, (∃ v, l.decodeInt32 bs = .ok v) ↔ bs.length = 4) ∧
      ∀ v bs, l.encodeInt32 v = bs ↔ l.decodeInt32 bs = .ok v) ∧
    ((∀ a bs, encodePointer ⟨l.width, .little⟩ a = .ok bs → ofLittleEndian bs = a.toNat) ∧
      ∀ v, (ofLittleEndian (encodeInt32 ⟨l.width, .little⟩ v) : Int) = v.toInt % UInt32.size) ∧
    (∀ a, encodePointer ⟨l.width, .big⟩ a =
      (encodePointer ⟨l.width, .little⟩ a).map List.reverse) ∧
    ∀ v, encodeInt32 ⟨l.width, .big⟩ v = (encodeInt32 ⟨l.width, .little⟩ v).reverse := by
  refine ⟨⟨fun a => exists_encodePointer_iff, fun a bs => length_of_encodePointer, fun bs => ?_,
      fun a bs => ⟨decodePointer_of_encodePointer, encodePointer_of_decodePointer⟩⟩,
    ⟨l.length_encodeInt32, fun bs => ?_, fun v bs => ⟨?_, encodeInt32_of_decodeInt32⟩⟩,
    ⟨fun a bs => value_of_encodePointer, ofLittleEndian_encodeInt32 l.width⟩,
    encodePointer_big l.width, fun v => rfl⟩
  · simp [decodePointer_ok_iff]
  · simp [decodeInt32_ok_iff]
  · rintro rfl
    exact l.decodeInt32_encodeInt32 v

end Layout

end Unwinding
