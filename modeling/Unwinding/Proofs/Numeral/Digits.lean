import Mathlib
import Unwinding.Address

/-!
# Digits

The digits of a number, decimal or hexadecimal, read back as the number, also behind zeros that fill
them up. Decimal digits start with a zero only if they are those of zero.
-/
namespace Unwinding

namespace Numeral

/-! ## Hexadecimal digits -/

theorem hexDigit?_digitChar : ∀ d < 16, hexDigit? (Nat.digitChar d).toUpper = some d := by decide

/-- A digit behind others adds to sixteen times their value. -/
private theorem hexValue?_append_singleton {cs : List Char} {c : Char} {n d : Nat}
    (hcs : hexValue? cs = some n) (hc : hexDigit? c = some d) :
    hexValue? (cs ++ [c]) = some (16 * n + d) := by
  rw [hexValue?] at hcs
  rw [hexValue?, List.foldlM_append, hcs]
  simp [hc]

theorem hexValue?_upperHex (n : Nat) : hexValue? (upperHex n) = some n := by
  induction n using Nat.strongRecOn with
  | _ n ih =>
    rw [upperHex, lowerHex, Nat.toDigits_eq_if (by decide)]
    split
    · rename_i h
      simp [hexValue?, hexDigit?_digitChar n h]
    · rename_i h
      have hhigh : hexValue? (upperHex (n / 16)) = some (n / 16) := ih (n / 16) (by omega)
      have hlow := hexDigit?_digitChar (n % 16) (Nat.mod_lt n (by decide))
      have hn := hexValue?_append_singleton hhigh hlow
      rw [Nat.div_add_mod, upperHex, lowerHex] at hn
      simpa only [List.map_append, List.map_singleton] using hn

theorem hexValue?_paddedHex (width n : Nat) : hexValue? (paddedHex width n) = some n := by
  have hzeros (k : Nat) : (List.replicate k '0').foldlM
      (fun n c => (hexDigit? c).map (16 * n + ·)) 0 = some 0 := by
    induction k with
    | zero => rfl
    | succ k ih => simpa [List.replicate_succ, hexDigit?] using ih
  rw [paddedHex, List.leftpad, hexValue?, List.foldlM_append, hzeros]
  exact hexValue?_upperHex n

private theorem hexDigit?_isSome_of_foldlM {c : Char} : ∀ {cs : List Char} {n v : Nat},
    cs.foldlM (fun n c => (hexDigit? c).map (16 * n + ·)) n = some v → c ∈ cs →
      (hexDigit? c).isSome = true
  | d :: cs, n, v, h, hc => by
    rw [List.foldlM_cons] at h
    obtain ⟨n', hd, h⟩ := Option.bind_eq_some_iff.1 h
    obtain rfl | hc := List.mem_cons.1 hc
    · obtain ⟨_, hd, -⟩ := Option.map_eq_some_iff.1 hd
      rw [hd, Option.isSome_some]
    · exact hexDigit?_isSome_of_foldlM h hc

theorem hexDigit?_isSome_of_mem {cs : List Char} {n : Nat} {c : Char} (h : hexValue? cs = some n)
    (hc : c ∈ cs) : (hexDigit? c).isSome = true :=
  hexDigit?_isSome_of_foldlM h hc

theorem length_paddedHex {width n : Nat} (hw : 0 < width) (h : n < 16 ^ width) :
    (paddedHex width n).length = width := by
  have hlen := (Nat.length_toDigits_le_iff (b := 16) (by decide) hw).2 h
  rw [paddedHex, List.leftpad, List.length_append, List.length_replicate, upperHex, List.length_map,
    lowerHex]
  omega

theorem upperHex_ne_nil (n : Nat) : upperHex n ≠ [] := by simp [upperHex, lowerHex]

/-! ## Decimal digits -/

theorem decimal_ne_nil (n : Nat) : decimal n ≠ [] := Nat.toDigits_ne_nil

theorem isDigit_of_mem_decimal {n : Nat} {c : Char} (h : c ∈ decimal n) : c.isDigit = true :=
  Nat.isDigit_of_mem_toDigits (by decide) (by decide) h

theorem eq_zero_of_head?_decimal {n : Nat} (h : (decimal n).head? = some '0') : n = 0 := by
  induction n using Nat.strongRecOn with
  | _ n ih =>
    rw [decimal, Nat.toDigits_eq_if (by decide)] at h
    split at h
    · simpa using h
    · have hne : Nat.toDigits 10 (n / 10) ≠ [] := Nat.toDigits_ne_nil
      rw [List.head?_append_of_ne_nil _ hne] at h
      have hz := ih (n / 10) (by omega) h
      omega

end Numeral

theorem Address.ofText?_shortText (a : Address) : Address.ofText? a.shortText = some a := by
  have hv := Numeral.hexValue?_upperHex a.toNat
  rw [shortText, ofText?, String.toList_ofList]
  cases hu : Numeral.upperHex a.toNat with
  | nil => exact absurd hu (Numeral.upperHex_ne_nil _)
  | cons c cs =>
    rw [hu] at hv
    simp [hv, a.toNat_lt]

end Unwinding
