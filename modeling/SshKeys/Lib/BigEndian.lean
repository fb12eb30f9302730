import Mathlib.Data.Nat.Digits.Lemmas

/-!
# Big-endian base-256 numerals

The value of a byte string read with the most significant byte first (`ofBytes`, any number of
leading zeros allowed) and the shortest byte string of a value (`toBytes`, empty for zero).
`ofBytes_toBytes` is the round trip. `toWord` writes a number in exactly four bytes and drops what
does not fit, `ofWord` reads four bytes back.
-/

set_option autoImplicit false

namespace Lib.BigEndian

/-- The unsigned value of a byte string, most significant byte first. -/
def ofBytes (bs : List UInt8) : Nat := bs.foldl (fun n b => n * 256 + b.toNat) 0

/-- The shortest byte string of a value, most significant byte first. -/
def toBytes (n : Nat) : List UInt8 := (Nat.digits 256 n).reverse.map UInt8.ofNat

theorem foldl_eq_ofDigits (bs : List UInt8) (n : Nat) :
    bs.foldl (fun n b => n * 256 + b.toNat) n =
      Nat.ofDigits 256 (bs.map UInt8.toNat).reverse + n * 256 ^ bs.length := by
  induction bs generalizing n with
  | nil => simp
  | cons b bs ih =>
      rw [List.foldl_cons, ih, List.map_cons, List.reverse_cons, Nat.ofDigits_append,
        List.length_reverse, List.length_map, Nat.ofDigits_singleton, List.length_cons, pow_succ]
      ring

theorem ofBytes_eq_ofDigits (bs : List UInt8) :
    ofBytes bs = Nat.ofDigits 256 (bs.map UInt8.toNat).reverse := by
  rw [ofBytes, foldl_eq_ofDigits]
  simp

theorem map_toNat_toBytes (n : Nat) : (toBytes n).map UInt8.toNat = (Nat.digits 256 n).reverse := by
  have hdigit : ∀ d ∈ (Nat.digits 256 n).reverse, (UInt8.toNat ∘ UInt8.ofNat) d = d := by
    intro d hd
    have hlt : d < 256 := Nat.digits_lt_base (by norm_num) (List.mem_reverse.1 hd)
    exact UInt8.toNat_ofNat_of_lt hlt
  rw [toBytes, List.map_map, List.map_congr_left hdigit, List.map_id']

/-- **Round trip**: the value of the shortest byte string of `n` is `n`. -/
@[simp] theorem ofBytes_toBytes (n : Nat) : ofBytes (toBytes n) = n := by
  rw [ofBytes_eq_ofDigits, map_toNat_toBytes, List.reverse_reverse, Nat.ofDigits_digits]

/-- Only zero has the empty byte string. -/
@[simp] theorem toBytes_eq_nil_iff {n : Nat} : toBytes n = [] ↔ n = 0 := by
  rw [toBytes, List.map_eq_nil_iff, List.reverse_eq_nil_iff, Nat.digits_eq_nil_iff_eq_zero]

/-- A leading zero byte does not change the value. -/
@[simp] theorem ofBytes_zero_cons (bs : List UInt8) : ofBytes (0 :: bs) = ofBytes bs := rfl

/-- A larger value has no shorter byte string. -/
theorem length_toBytes_mono {m n : Nat} (h : m ≤ n) :
    (toBytes m).length ≤ (toBytes n).length := by
  rw [toBytes, toBytes, List.length_map, List.length_map, List.length_reverse, List.length_reverse]
  exact Nat.le_length_digits_le 256 m n h

/-! ## Words of four bytes -/

/-- The four bytes of a number below `2 ^ 32`; higher digits are dropped. -/
def toWord (n : Nat) : List UInt8 :=
  [UInt8.ofNat (n / 2 ^ 24), UInt8.ofNat (n / 2 ^ 16), UInt8.ofNat (n / 2 ^ 8), UInt8.ofNat n]

/-- The number four bytes stand for. -/
def ofWord (b₀ b₁ b₂ b₃ : UInt8) : Nat :=
  b₀.toNat * 2 ^ 24 + b₁.toNat * 2 ^ 16 + b₂.toNat * 2 ^ 8 + b₃.toNat

@[simp] theorem length_toWord (n : Nat) : (toWord n).length = 4 := rfl

theorem ofWord_lt (b₀ b₁ b₂ b₃ : UInt8) : ofWord b₀ b₁ b₂ b₃ < 2 ^ 32 := by
  have h₀ := b₀.toNat_lt
  have h₁ := b₁.toNat_lt
  have h₂ := b₂.toNat_lt
  have h₃ := b₃.toNat_lt
  unfold ofWord
  omega

theorem ofWord_toWord {n : Nat} (h : n < 2 ^ 32) :
    ofWord (UInt8.ofNat (n / 2 ^ 24)) (UInt8.ofNat (n / 2 ^ 16)) (UInt8.ofNat (n / 2 ^ 8))
      (UInt8.ofNat n) = n := by
  simp only [ofWord, UInt8.toNat_ofNat']
  omega

theorem toWord_ofWord (b₀ b₁ b₂ b₃ : UInt8) : toWord (ofWord b₀ b₁ b₂ b₃) = [b₀, b₁, b₂, b₃] := by
  have h₀ := b₀.toNat_lt
  have h₁ := b₁.toNat_lt
  have h₂ := b₂.toNat_lt
  have h₃ := b₃.toNat_lt
  have hbyte (m : Nat) (b : UInt8) (h : m % 256 = b.toNat) : UInt8.ofNat m = b := by
    apply UInt8.toNat_inj.1
    rw [UInt8.toNat_ofNat']
    exact h
  simp only [toWord, List.cons.injEq, and_true]
  refine ⟨hbyte _ _ ?_, hbyte _ _ ?_, hbyte _ _ ?_, hbyte _ _ ?_⟩ <;> unfold ofWord <;> omega

end Lib.BigEndian
