import Unwinding.Fault

/-!
# Data layouts

How wide a pointer is and in which order the bytes of a number are stored. Encoding and decoding
of pointers and of 32-bit integers, for all four layouts.
-/
namespace Unwinding

inductive Width
  | bits32
  | bits64
  deriving DecidableEq, Repr

inductive Endian
  | little
  | big
  deriving DecidableEq, Repr

structure Layout where
  width : Width := .bits64
  endian : Endian := .little
  deriving DecidableEq, Repr

def Width.bytes : Width → Nat
  | bits32 => 4
  | bits64 => 8

/-- The `n` lowest digits of `v` to base 256, least significant first. -/
def littleEndian : Nat → Nat → List UInt8
  | 0, _ => []
  | n + 1, v => UInt8.ofNat v :: littleEndian n (v / 256)

def ofLittleEndian : List UInt8 → Nat
  | [] => 0
  | b :: bs => b.toNat + 256 * ofLittleEndian bs

/-- Between least significant byte first and the stored order; its own inverse. -/
def Endian.arrange : Endian → List UInt8 → List UInt8
  | little, bs => bs
  | big, bs => bs.reverse

namespace Layout

def pointerSize (l : Layout) : Nat := l.width.bytes

/-- The numbers below this bound fit a pointer. -/
def pointerBound (l : Layout) : Nat :=
  match l.width with
  | .bits32 => UInt32.size
  | .bits64 => UInt64.size

def encodePointer (l : Layout) (a : Address) : Except Fault (List UInt8) :=
  if a.toNat < l.pointerBound then
    .ok (l.endian.arrange (littleEndian l.pointerSize a.toNat))
  else
    .error (.addressOutOfRange a (8 * l.pointerSize))

def encodeInt32 (l : Layout) (v : Int32) : List UInt8 :=
  l.endian.arrange (littleEndian 4 v.toUInt32.toNat)

private def wrongLength (expected found : Nat) : Fault :=
  .internal (String.ofList ("expected ".toList ++ Numeral.decimal expected ++ " bytes, got ".toList ++
    Numeral.decimal found))

def decodePointer (l : Layout) (bs : List UInt8) : Except Fault Address :=
  if bs.length = l.pointerSize then
    .ok (.ofNat (ofLittleEndian (l.endian.arrange bs)))
  else
    .error (wrongLength l.pointerSize bs.length)

def decodeInt32 (l : Layout) (bs : List UInt8) : Except Fault Int32 :=
  if bs.length = 4 then
    .ok (UInt32.ofNat (ofLittleEndian (l.endian.arrange bs))).toInt32
  else
    .error (wrongLength 4 bs.length)

end Layout

@[simp] theorem length_littleEndian (n v : Nat) : (littleEndian n v).length = n := by
  induction n generalizing v with
  | zero => rfl
  | succ n ih => simp [littleEndian, ih]

@[simp] theorem Endian.length_arrange (e : Endian) (bs : List UInt8) :
    (e.arrange bs).length = bs.length := by cases e <;> simp [arrange]

@[simp] theorem Endian.arrange_arrange (e : Endian) (bs : List UInt8) :
    e.arrange (e.arrange bs) = bs := by cases e <;> simp [arrange]

end Unwinding
