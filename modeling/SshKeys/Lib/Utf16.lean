import Mathlib.Tactic.Common

/-!
# UTF-16

Text as 16-bit code units: a character outside the basic plane is a pair of surrogates (`encode`),
and a surrogate that is not part of a pair is no text (`decode`). `decode_encode` is the round trip,
and `decode_eq_some_iff` adds that no other code units are the text. At a code unit that is no
surrogate a text can be split without a look at the rest (`decode_append_cons`). Zero is such a
unit, so text that is read up to its first zero is text again (`takeWhile_encode`).
-/

set_option autoImplicit false

namespace Lib.Utf16

/-- The code units of a character. -/
def encodeChar (c : Char) : List UInt16 :=
  if c.toNat < 0x10000 then [UInt16.ofNat c.toNat]
  else
    [UInt16.ofNat (0xD800 + (c.toNat - 0x10000) / 0x400),
      UInt16.ofNat (0xDC00 + (c.toNat - 0x10000) % 0x400)]

/-- The code units of a text. -/
def encode (cs : List Char) : List UInt16 := cs.flatMap encodeChar

/-- Not a half of a pair. -/
def Plain (u : UInt16) : Prop := u.toNat < 0xD800 ∨ 0xE000 ≤ u.toNat

/-- The two halves of a pair, in their order. -/
def Pair (u v : UInt16) : Prop := u.toNat < 0xDC00 ∧ 0xDC00 ≤ v.toNat ∧ v.toNat < 0xE000

instance : DecidablePred Plain := fun u =>
  inferInstanceAs (Decidable (u.toNat < 0xD800 ∨ 0xE000 ≤ u.toNat))

instance (u v : UInt16) : Decidable (Pair u v) :=
  inferInstanceAs (Decidable (u.toNat < 0xDC00 ∧ 0xDC00 ≤ v.toNat ∧ v.toNat < 0xE000))

/-- The text of code units, if they are one. -/
def decode : List UInt16 → Option (List Char)
  | [] => some []
  | u :: us =>
      if Plain u then (decode us).map (Char.ofNat u.toNat :: ·)
      else
        match us with
        | [] => none
        | v :: vs =>
            if Pair u v then
              (decode vs).map
                (Char.ofNat (0x10000 + (u.toNat - 0xD800) * 0x400 + (v.toNat - 0xDC00)) :: ·)
            else none

theorem decode_cons_of_plain {u : UInt16} (h : Plain u) (us : List UInt16) :
    decode (u :: us) = (decode us).map (Char.ofNat u.toNat :: ·) := by
  rw [decode.eq_def]
  exact if_pos h

theorem decode_pair {u v : UInt16} (hu : ¬ Plain u) (h : Pair u v) (us : List UInt16) :
    decode (u :: v :: us) = (decode us).map
      (Char.ofNat (0x10000 + (u.toNat - 0xD800) * 0x400 + (v.toNat - 0xDC00)) :: ·) := by
  rw [decode, if_neg hu]
  exact if_pos h

theorem decode_encodeChar_append (c : Char) (us : List UInt16) :
    decode (encodeChar c ++ us) = (decode us).map (c :: ·) := by
  have hvalid : c.toNat < 0xD800 ∨ 0xDFFF < c.toNat ∧ c.toNat < 0x110000 := c.valid
  rw [encodeChar]
  split
  · next hc =>
      have hu : (UInt16.ofNat c.toNat).toNat = c.toNat := UInt16.toNat_ofNat_of_lt hc
      have hplain : Plain (UInt16.ofNat c.toNat) := by
        rw [Plain, hu]
        omega
      rw [List.singleton_append, decode_cons_of_plain hplain, hu, Char.ofNat_toNat]
  · next hc =>
      have hu : (UInt16.ofNat (0xD800 + (c.toNat - 0x10000) / 0x400)).toNat =
          0xD800 + (c.toNat - 0x10000) / 0x400 :=
        UInt16.toNat_ofNat_of_lt (by show _ < 65536; omega)
      have hv : (UInt16.ofNat (0xDC00 + (c.toNat - 0x10000) % 0x400)).toNat =
          0xDC00 + (c.toNat - 0x10000) % 0x400 :=
        UInt16.toNat_ofNat_of_lt (by show _ < 65536; omega)
      -- a half of a pair is in the range of its kind
      have hplain : ¬ Plain (UInt16.ofNat (0xD800 + (c.toNat - 0x10000) / 0x400)) := by
        rw [Plain, hu]
        omega
      have hpair : Pair (UInt16.ofNat (0xD800 + (c.toNat - 0x10000) / 0x400))
          (UInt16.ofNat (0xDC00 + (c.toNat - 0x10000) % 0x400)) := by
        rw [Pair, hu, hv]
        omega
      have hvalue : 0x10000 + (0xD800 + (c.toNat - 0x10000) / 0x400 - 0xD800) * 0x400 +
          (0xDC00 + (c.toNat - 0x10000) % 0x400 - 0xDC00) = c.toNat := by omega
      rw [List.cons_append, List.singleton_append, decode_pair hplain hpair, hu, hv, hvalue,
        Char.ofNat_toNat]

/-- **Round trip.** -/
theorem decode_encode (cs : List Char) : decode (encode cs) = some cs := by
  induction cs with
  | nil => rfl
  | cons c cs ih =>
      rw [encode, List.flatMap_cons, decode_encodeChar_append]
      rw [encode] at ih
      rw [ih]
      rfl

theorem toNat_ofNat_of_isValidChar {n : Nat} (h : n.isValidChar) : (Char.ofNat n).toNat = n := by
  rw [Char.ofNat, dif_pos h]
  rfl

/-- The character of a code unit outside the pairs has this unit for its code. -/
theorem encodeChar_of_plain {u : UInt16} (h : Plain u) : encodeChar (Char.ofNat u.toNat) = [u] := by
  have hlt : u.toNat < 65536 := u.toNat_lt
  have hvalid : Nat.isValidChar u.toNat := by
    rcases h with h | h
    · exact Or.inl h
    · exact Or.inr ⟨by omega, by omega⟩
  have hnat : (Char.ofNat u.toNat).toNat = u.toNat :=
    toNat_ofNat_of_isValidChar hvalid
  rw [encodeChar, hnat, if_pos hlt, UInt16.ofNat_toNat]

/-- The character of a pair has the pair for its code. -/
theorem encodeChar_of_pair {u v : UInt16} (hu : ¬ Plain u) (h : Pair u v) :
    encodeChar (Char.ofNat (0x10000 + (u.toNat - 0xD800) * 0x400 + (v.toNat - 0xDC00))) =
      [u, v] := by
  obtain ⟨hhigh, hlow, hlow'⟩ := h
  rw [Plain, not_or, Nat.not_lt, Nat.not_le] at hu
  have hvalid : Nat.isValidChar
      (0x10000 + (u.toNat - 0xD800) * 0x400 + (v.toNat - 0xDC00)) := Or.inr ⟨by omega, by omega⟩
  have hnat :=
    toNat_ofNat_of_isValidChar hvalid
  have hdiv : 0xD800 + (0x10000 + (u.toNat - 0xD800) * 0x400 + (v.toNat - 0xDC00) - 0x10000) /
      0x400 = u.toNat := by omega
  have hmod : 0xDC00 + (0x10000 + (u.toNat - 0xD800) * 0x400 + (v.toNat - 0xDC00) - 0x10000) %
      0x400 = v.toNat := by omega
  rw [encodeChar, hnat, if_neg (by omega), hdiv, hmod, UInt16.ofNat_toNat, UInt16.ofNat_toNat]

/-- Text comes from no other code units than its own. -/
theorem encode_of_decode {us : List UInt16} {cs : List Char} (h : decode us = some cs) :
    us = encode cs := by
  induction us using decode.induct generalizing cs with
  | case1 =>
      cases h
      rfl
  | case2 u us hu ih =>
      rw [decode_cons_of_plain hu] at h
      obtain ⟨cs', hcs', rfl⟩ := Option.map_eq_some_iff.1 h
      rw [encode, List.flatMap_cons, encodeChar_of_plain hu, List.singleton_append]
      exact congrArg (u :: ·) (ih hcs')
  | case3 u hu => simp [decode, hu] at h
  | case4 u hu v us hpair ih =>
      rw [decode_pair hu hpair] at h
      obtain ⟨cs', hcs', rfl⟩ := Option.map_eq_some_iff.1 h
      rw [encode, List.flatMap_cons, encodeChar_of_pair hu hpair, List.cons_append,
        List.singleton_append]
      exact congrArg (fun us => u :: v :: us) (ih hcs')
  | case5 u hu v us hpair => simp [decode, hu, hpair] at h

/-- **Exactness.** Code units are a text exactly when they are its code. -/
theorem decode_eq_some_iff {us : List UInt16} {cs : List Char} :
    decode us = some cs ↔ us = encode cs := by
  constructor
  · exact encode_of_decode
  · rintro rfl
    exact decode_encode cs

/-- **Splitting.** Text with a code unit that is no surrogate is the text before it, its character
and the text behind it. -/
theorem decode_append_cons {us vs : List UInt16} {u : UInt16} (hu : Plain u) {cs : List Char}
    (h : decode (us ++ u :: vs) = some cs) :
    ∃ before after, decode us = some before ∧ decode vs = some after ∧
      cs = before ++ Char.ofNat u.toNat :: after := by
  induction us using decode.induct generalizing cs with
  | case1 =>
      rw [List.nil_append, decode_cons_of_plain hu] at h
      obtain ⟨after, hafter, rfl⟩ := Option.map_eq_some_iff.1 h
      exact ⟨[], after, rfl, hafter, rfl⟩
  | case2 w ws hw ih =>
      rw [List.cons_append, decode_cons_of_plain hw] at h
      obtain ⟨cs', hcs', rfl⟩ := Option.map_eq_some_iff.1 h
      obtain ⟨before, after, hbefore, hafter, rfl⟩ := ih hcs'
      exact ⟨_ :: before, after, by rw [decode_cons_of_plain hw, hbefore]; rfl, hafter, rfl⟩
  | case3 w hw =>
      -- the code unit would have to be the second half of a pair
      have hpair : ¬ Pair w u := by
        rintro ⟨-, hlow, hhigh⟩
        rcases hu with hu | hu
        · omega
        · omega
      simp [decode, hw, hpair] at h
  | case4 w hw w' ws hpair ih =>
      rw [List.cons_append, List.cons_append, decode_pair hw hpair] at h
      obtain ⟨cs', hcs', rfl⟩ := Option.map_eq_some_iff.1 h
      obtain ⟨before, after, hbefore, hafter, rfl⟩ := ih hcs'
      exact ⟨_ :: before, after, by rw [decode_pair hw hpair, hbefore]; rfl, hafter, rfl⟩
  | case5 w hw w' ws hpair => simp [decode, hw, hpair] at h

/-! ## Texts that end with a zero -/

theorem zero_mem_encodeChar_iff {c : Char} : 0 ∈ encodeChar c ↔ c = '\x00' := by
  constructor
  · intro h
    obtain ⟨before, after, hsplit⟩ := List.append_of_mem h
    have hplain : Plain 0 := by decide
    have hdecode : decode (before ++ 0 :: after) = some [c] := by
      rw [← hsplit, ← List.append_nil (encodeChar c), decode_encodeChar_append]
      rfl
    obtain ⟨cs, cs', -, -, hc⟩ := decode_append_cons hplain hdecode
    -- the only character of the text is the one of the zero
    have hmem : Char.ofNat (0 : UInt16).toNat ∈ [c] := by
      rw [hc]
      exact List.mem_append_right cs List.mem_cons_self
    exact (List.mem_singleton.1 hmem).symm
  · rintro rfl
    decide

/-- **Cut at the first zero**, text is the text up to the first zero character. -/
theorem takeWhile_encode (cs : List Char) (rest : List UInt16) :
    (encode cs ++ 0 :: rest).takeWhile (· ≠ 0) = encode (cs.takeWhile (· ≠ '\x00')) := by
  induction cs with
  | nil => rfl
  | cons c cs ih =>
      rw [encode, List.flatMap_cons, List.append_assoc]
      by_cases hc : c = '\x00'
      · rw [hc, List.takeWhile_cons_of_neg (by simp)]
        rfl
      · have hall : ∀ u ∈ encodeChar c, decide (u ≠ 0) = true := by
          intro u hu
          rw [decide_eq_true_eq]
          rintro rfl
          exact hc (zero_mem_encodeChar_iff.1 hu)
        rw [List.takeWhile_append_of_pos hall, List.takeWhile_cons_of_pos (by simpa using hc)]
        rw [encode] at ih
        rw [ih, encode, encode, List.flatMap_cons]

end Lib.Utf16
