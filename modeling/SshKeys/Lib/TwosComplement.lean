import SshKeys.Lib.BigEndian

/-!
# Two's complement byte strings

The signed value of a byte string, most significant byte first (`signed`), and the shortest byte
string of a value (`Canonical`), of which there is at most one (`canonical_unique`). `ofNat` is the
shortest byte string of a natural number: the digits, with a zero byte in front if the first bit
would be read as a sign.
-/

set_option autoImplicit false

namespace Lib.TwosComplement

open BigEndian

/-- The value of a byte string whose first bit is the sign. -/
def signed : List UInt8 → Int
  | [] => 0
  | b :: bs =>
      if 128 ≤ b.toNat then (ofBytes (b :: bs) : Int) - 256 ^ (b :: bs).length
      else ofBytes (b :: bs)

/-- No byte string with the value `z` is shorter than `bs`, which is one. -/
structure Canonical (z : Int) (bs : List UInt8) : Prop where
  value : signed bs = z
  shortest : ∀ bs', signed bs' = z → bs.length ≤ bs'.length

/-- The digits of `n`, with a zero byte in front if the first one has its first bit set. -/
def ofNat (n : Nat) : List UInt8 :=
  match toBytes n with
  | [] => []
  | b :: bs => if 128 ≤ b.toNat then 0 :: b :: bs else b :: bs

/-! ## Unsigned values -/

theorem ofBytes_cons (b : UInt8) (bs : List UInt8) :
    ofBytes (b :: bs) = b.toNat * 256 ^ bs.length + ofBytes bs := by
  rw [ofBytes_eq_ofDigits bs, ofBytes, List.foldl_cons, foldl_eq_ofDigits]
  ring

theorem ofBytes_lt (bs : List UInt8) : ofBytes bs < 256 ^ bs.length := by
  induction bs with
  | nil => exact Nat.one_pos
  | cons b bs ih =>
      have hb : b.toNat + 1 ≤ 256 := b.toNat_lt
      calc ofBytes (b :: bs) = b.toNat * 256 ^ bs.length + ofBytes bs := ofBytes_cons b bs
        _ < b.toNat * 256 ^ bs.length + 256 ^ bs.length := Nat.add_lt_add_left ih _
        _ = (b.toNat + 1) * 256 ^ bs.length := by ring
        _ ≤ 256 * 256 ^ bs.length := Nat.mul_le_mul_right _ hb
        _ = 256 ^ (b :: bs).length := by rw [List.length_cons, pow_succ]; ring

/-- Byte strings of one length with one value are the same. -/
theorem ofBytes_inj {bs bs' : List UInt8} (hlen : bs.length = bs'.length)
    (h : ofBytes bs = ofBytes bs') : bs = bs' := by
  induction bs generalizing bs' with
  | nil => exact (List.eq_nil_of_length_eq_zero hlen.symm).symm
  | cons b bs ih =>
      cases bs' with
      | nil => cases hlen
      | cons b' bs' =>
          have hlen' : bs.length = bs'.length := Nat.succ.inj hlen
          have hlt := ofBytes_lt bs
          have hlt' := ofBytes_lt bs'
          rw [ofBytes_cons, ofBytes_cons, ← hlen'] at h
          rw [← hlen'] at hlt'
          -- the first digit is the quotient, the rest is the remainder
          have hpos : 0 < 256 ^ bs.length := Nat.pow_pos (by norm_num)
          have hdigit : b.toNat = b'.toNat := by
            have hdiv := congrArg (· / 256 ^ bs.length) h
            simpa [Nat.mul_comm _ (256 ^ bs.length), Nat.mul_add_div hpos,
              Nat.div_eq_of_lt hlt, Nat.div_eq_of_lt hlt'] using hdiv
          rw [hdigit, Nat.add_left_cancel_iff] at h
          rw [UInt8.toNat_inj.1 hdigit, ih hlen' h]

/-! ## Signed values -/

/-- The unsigned value is the signed one up to the modulus. -/
theorem exists_signed_eq (bs : List UInt8) :
    ∃ k : Int, signed bs = ofBytes bs - k * 256 ^ bs.length := by
  cases bs with
  | nil => exact ⟨0, rfl⟩
  | cons b bs =>
      rw [signed]
      split
      · exact ⟨1, by ring⟩
      · exact ⟨0, by ring⟩

theorem signed_inj {bs bs' : List UInt8} (hlen : bs.length = bs'.length)
    (h : signed bs = signed bs') : bs = bs' := by
  obtain ⟨k, hk⟩ := exists_signed_eq bs
  obtain ⟨k', hk'⟩ := exists_signed_eq bs'
  apply ofBytes_inj hlen
  have hlt := ofBytes_lt bs
  have hlt' := ofBytes_lt bs'
  rw [hk, hk', ← hlen] at h
  rw [← hlen] at hlt'
  -- two numbers below the modulus that are congruent
  have hmod : (ofBytes bs : Int) ≡ ofBytes bs' [ZMOD (256 ^ bs.length : Nat)] := by
    apply Int.ModEq.symm
    rw [Int.modEq_iff_dvd]
    refine ⟨k - k', ?_⟩
    push_cast
    linarith
  exact Nat.ModEq.eq_of_lt_of_lt (Int.natCast_modEq_iff.1 hmod) hlt hlt'

theorem canonical_unique {z : Int} {bs bs' : List UInt8} (h : Canonical z bs)
    (h' : Canonical z bs') : bs = bs' :=
  signed_inj (Nat.le_antisymm (h.shortest bs' h'.value) (h'.shortest bs h.value))
    (h.value.trans h'.value.symm)

/-- A value that is not negative is the unsigned one, and its first bit is clear. -/
theorem signed_eq_natCast_iff {bs : List UInt8} {n : Nat} :
    signed bs = n ↔ ofBytes bs = n ∧ 2 * n < 256 ^ bs.length := by
  cases bs with
  | nil =>
      simp only [signed, ofBytes, List.foldl_nil, List.length_nil, pow_zero]
      omega
  | cons b bs =>
      have hlt := ofBytes_lt (b :: bs)
      have htail := ofBytes_lt bs
      have hpow : (256 : Nat) ^ (b :: bs).length = 256 * 256 ^ bs.length := by
        rw [List.length_cons, pow_succ]
        ring
      rw [signed]
      split
      -- with the first bit set the value is negative, and twice the digits reach the modulus
      · next hb =>
          have hge : 256 ^ (b :: bs).length ≤ 2 * ofBytes (b :: bs) := by
            have hmul : 128 * 256 ^ bs.length ≤ b.toNat * 256 ^ bs.length :=
              Nat.mul_le_mul_right _ hb
            rw [ofBytes_cons, hpow]
            omega
          refine iff_of_false ?_ ?_
          · intro h
            have hcast : ((256 ^ (b :: bs).length : Nat) : Int) = 256 ^ (b :: bs).length := by
              push_cast
              rfl
            omega
          · rintro ⟨hn, hn'⟩
            omega
      · next hb =>
          have hlt2 : 2 * ofBytes (b :: bs) < 256 ^ (b :: bs).length := by
            have hmul : b.toNat * 256 ^ bs.length ≤ 127 * 256 ^ bs.length :=
              Nat.mul_le_mul_right _ (by omega)
            rw [ofBytes_cons, hpow]
            omega
          rw [Nat.cast_inj]
          constructor
          · intro h
            exact ⟨h, by rwa [← h]⟩
          · exact And.left

/-! ## The shortest byte string -/

theorem length_toBytes_le {n : Nat} {k : Nat} (h : n < 256 ^ k) : (toBytes n).length ≤ k := by
  rw [toBytes, List.length_map, List.length_reverse]
  exact (Nat.digits_length_le_iff (by norm_num) n).2 h

/-- A byte string that begins with no zero byte is the shortest one of its value. -/
theorem length_toBytes_ofBytes {b : UInt8} (hb : b ≠ 0) (bs : List UInt8) :
    (toBytes (ofBytes (b :: bs))).length = (b :: bs).length := by
  apply Nat.le_antisymm (length_toBytes_le (ofBytes_lt (b :: bs)))
  have hpos : 1 ≤ b.toNat := by
    rw [Nat.one_le_iff_ne_zero]
    exact fun h => hb (UInt8.toNat_inj.1 h)
  have hlow : 256 ^ bs.length ≤ ofBytes (b :: bs) := by
    rw [ofBytes_cons]
    exact le_add_right (Nat.le_mul_of_pos_left _ hpos)
  have hhigh := ofBytes_lt (toBytes (ofBytes (b :: bs)))
  rw [ofBytes_toBytes] at hhigh
  exact (Nat.pow_lt_pow_iff_right (by norm_num)).1 (hlow.trans_lt hhigh)

/-- **Shortest.** The digits, with a zero byte in front if they need one, are the shortest byte
string of a natural number. -/
theorem canonical_ofNat (n : Nat) : Canonical n (ofNat n) := by
  have hvalue : ofBytes (toBytes n) = n := ofBytes_toBytes n
  have hshort {bs' : List UInt8} (h : signed bs' = n) :
      (toBytes n).length ≤ bs'.length ∧ 2 * n < 256 ^ bs'.length := by
    obtain ⟨-, hlt⟩ := signed_eq_natCast_iff.1 h
    exact ⟨length_toBytes_le (by omega), hlt⟩
  rw [ofNat]
  cases hdigits : toBytes n with
  | nil =>
      have hzero : n = 0 := toBytes_eq_nil_iff.1 hdigits
      exact ⟨by rw [hzero]; rfl, fun bs' _ => Nat.zero_le _⟩
  | cons b bs =>
      rw [hdigits] at hvalue hshort
      have htail := ofBytes_lt bs
      have hpow : (256 : Nat) ^ (b :: bs).length = 256 * 256 ^ bs.length := by
        rw [List.length_cons, pow_succ]
        ring
      by_cases hb : 128 ≤ b.toNat
      · simp only [if_pos hb]
        have hge : 256 ^ (b :: bs).length ≤ 2 * n := by
          have hmul : 128 * 256 ^ bs.length ≤ b.toNat * 256 ^ bs.length :=
            Nat.mul_le_mul_right _ hb
          rw [← hvalue, ofBytes_cons, hpow]
          omega
        constructor
        · rw [signed, if_neg (by decide), ofBytes_zero_cons, hvalue]
        · -- as many bytes as digits cannot hold twice the number
          intro bs' h
          obtain ⟨hle, hlt⟩ := hshort h
          rcases Nat.lt_or_eq_of_le hle with hlt' | heq
          · exact hlt'
          · rw [heq] at hge
            omega
      · simp only [if_neg hb]
        constructor
        · rw [signed, if_neg hb, hvalue]
        · intro bs' h
          exact (hshort h).1

/-- At most one byte stands in front of the digits. -/
theorem length_ofNat_le (n : Nat) : (ofNat n).length ≤ (toBytes n).length + 1 := by
  rw [ofNat]
  cases toBytes n with
  | nil => simp
  | cons b bs =>
      simp only
      split <;> simp

theorem canonical_natCast_iff {n : Nat} {bs : List UInt8} : Canonical n bs ↔ bs = ofNat n := by
  constructor
  · intro h
    exact canonical_unique h (canonical_ofNat n)
  · rintro rfl
    exact canonical_ofNat n

end Lib.TwosComplement
