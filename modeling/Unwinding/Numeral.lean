/-! # Number texts: decimal, hexadecimal in both cases, zero-padded, and bytes as digit pairs -/
namespace Unwinding.Numeral

def decimal (n : Nat) : List Char := Nat.toDigits 10 n

def signed : Int → List Char
  | .ofNat n => decimal n
  | .negSucc n => '-' :: decimal (n + 1)

def lowerHex (n : Nat) : List Char := Nat.toDigits 16 n

def upperHex (n : Nat) : List Char := (lowerHex n).map Char.toUpper

/-- At least `width` digits, filled up with zeros on the left. -/
def paddedHex (width n : Nat) : List Char := (upperHex n).leftpad width '0'

/-- The value of a hexadecimal digit of either case. -/
def hexDigit? (c : Char) : Option Nat :=
  if '0' ≤ c ∧ c ≤ '9' then some (c.toNat - '0'.toNat)
  else if 'a' ≤ c ∧ c ≤ 'f' then some (c.toNat - 'a'.toNat + 10)
  else if 'A' ≤ c ∧ c ≤ 'F' then some (c.toNat - 'A'.toNat + 10)
  else none

/-- The number that a run of hexadecimal digits stands for, most significant digit first. -/
def hexValue? (cs : List Char) : Option Nat :=
  cs.foldlM (fun n c => (hexDigit? c).map (16 * n + ·)) 0

/-- Two lower-case digits per byte. -/
def ofBytes (bs : List UInt8) : List Char :=
  bs.flatMap fun b => (lowerHex b.toNat).leftpad 2 '0'

def bytes? : List Char → Option (List UInt8)
  | [] => some []
  | [_] => none
  | a :: b :: r => do
    let hi ← hexDigit? a
    let lo ← hexDigit? b
    return UInt8.ofNat (16 * hi + lo) :: (← bytes? r)

end Unwinding.Numeral
