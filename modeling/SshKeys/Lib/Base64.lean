import Mathlib.Tactic.Common

/-!
# Base64

The standard encoding of a byte string by 64 printable characters: four for every three bytes, six
bits each, and `=` in place of what the last bytes do not fill (`encode`). Only the empty string has
the empty encoding, and every character of an encoding is printable (`encode_printable`).
-/

set_option autoImplicit false

namespace Lib.Base64

/-- The character for six bits. -/
def digit (n : Nat) : Char :=
  if n < 26 then Char.ofNat ('A'.toNat + n)
  else if n < 52 then Char.ofNat ('a'.toNat + (n - 26))
  else if n < 62 then Char.ofNat ('0'.toNat + (n - 52))
  else if n = 62 then '+'
  else '/'

/-- The two bytes or the one byte at the end are filled up with zero bits. -/
def encode : List UInt8 → List Char
  | [] => []
  | [a] => [digit (a.toNat / 4), digit (a.toNat % 4 * 16), '=', '=']
  | [a, b] =>
      [digit (a.toNat / 4), digit (a.toNat % 4 * 16 + b.toNat / 16), digit (b.toNat % 16 * 4), '=']
  | a :: b :: c :: rest =>
      digit (a.toNat / 4) :: digit (a.toNat % 4 * 16 + b.toNat / 16) ::
        digit (b.toNat % 16 * 4 + c.toNat / 64) :: digit (c.toNat % 64) :: encode rest

example : encode [77, 97, 110, 77] = "TWFuTQ==".toList := by decide

theorem encode_eq_nil_iff {bs : List UInt8} : encode bs = [] ↔ bs = [] := by
  rcases bs with _ | ⟨a, _ | ⟨b, _ | ⟨c, rest⟩⟩⟩ <;> simp [encode]

/-- An encoding is not shorter than what it encodes. -/
theorem length_le_encode (bs : List UInt8) : bs.length ≤ (encode bs).length := by
  induction bs using encode.induct with
  | case1 => exact Nat.le_refl 0
  | case2 a => simp [encode]
  | case3 a b => simp [encode]
  | case4 a b c rest ih =>
      simp only [encode, List.length_cons]
      omega

theorem digit_printable (n : Nat) : 32 < (digit n).toNat ∧ (digit n).toNat < 127 := by
  have hsmall : ∀ n < 64, 32 < (digit n).toNat ∧ (digit n).toNat < 127 := by decide
  by_cases hn : n < 64
  · exact hsmall n hn
  · have hlast : digit n = '/' := by
      rw [digit, if_neg (by omega), if_neg (by omega), if_neg (by omega), if_neg (by omega)]
    rw [hlast]
    decide

/-- An encoding has no blanks, line breaks or characters outside ASCII. -/
theorem encode_printable {bs : List UInt8} {c : Char} (h : c ∈ encode bs) :
    32 < c.toNat ∧ c.toNat < 127 := by
  have hpad : 32 < '='.toNat ∧ '='.toNat < 127 := by decide
  induction bs using encode.induct with
  | case1 => cases h
  | case2 a =>
      simp only [encode, List.mem_cons, List.not_mem_nil, or_false] at h
      rcases h with rfl | rfl | rfl | rfl
      · exact digit_printable _
      · exact digit_printable _
      · exact hpad
      · exact hpad
  | case3 a b =>
      simp only [encode, List.mem_cons, List.not_mem_nil, or_false] at h
      rcases h with rfl | rfl | rfl | rfl
      · exact digit_printable _
      · exact digit_printable _
      · exact digit_printable _
      · exact hpad
  | case4 a b c rest ih =>
      simp only [encode, List.mem_cons] at h
      rcases h with rfl | rfl | rfl | rfl | h
      · exact digit_printable _
      · exact digit_printable _
      · exact digit_printable _
      · exact digit_printable _
      · exact ih h

end Lib.Base64
