import Mathlib.Data.Nat.Bitwise
import SshKeys.Lib.Outcome
import SshKeys.Lib.TwosComplement

/-!
# The wire format of the agent protocol

Reading and writing of the protocol's basic values, after `agent/wire.rs`: bytes, big-endian `u32`
numbers, length-prefixed strings, UTF-8 strings and multi-precision integers. A cursor over a byte
slice is the list of its unread bytes, and a `Vec<u8>` written to is the list of its bytes, so
writing cannot fail except by the panic in `writeMpint`.

`readString_eq_ok_iff` says what a reader of strings accepts: a complete length-prefixed string,
whatever follows it. `writeMpint_eq_ok_iff` says how an integer is written: as the shortest two's
complement string of its value.
-/

set_option autoImplicit false

namespace SshKeys

open Lib

/-- `Vec<u8>` and `&[u8]` -/
abbrev Bytes := List UInt8

/-- The kinds of `std::io::Error` that the source tells apart. -/
inductive ErrorKind where
  | unexpectedEof
  | brokenPipe
  | other
  deriving DecidableEq

/-- An error with the messages wrapped around it. -/
inductive Error where
  | io (kind : ErrorKind)
  | fromUtf8
  | crate (name : String)
  | new (msg : String)
  | wrap (msg : String) (cause : Error)
  deriving DecidableEq

/-- Readers over the unread bytes of a slice. -/
abbrev Read := Decoder UInt8 Error

/-- The most bytes that a number of OpenSSL has: its memory is at most `2 ^ 31 / 256` words of eight
bytes, rounded down. -/
def maxBytes : Nat := 8 * ((2 ^ 31 - 1) / (4 * 64))

/-- An OpenSSL number. Every number the source stores is read from bytes or is the remainder of a
number read from bytes, and neither is negative. -/
structure BigNum where
  val : Nat
  length_le : (BigEndian.toBytes val).length ≤ maxBytes
  deriving DecidableEq

namespace BigNum

/-- The number `n`, if OpenSSL has room for it. -/
def ofNat? (n : Nat) : Option BigNum :=
  if h : (BigEndian.toBytes n).length ≤ maxBytes then some ⟨n, h⟩ else none

/-- Zero and one, and what is written down in an example. -/
instance (n : Nat) : OfNat BigNum n where
  ofNat := (ofNat? n).getD ⟨0, Nat.zero_le maxBytes⟩

/-- `BigNum::from_slice`. It asserts that the length is one of C's `int`, and there is no memory for
a number of more than `maxBytes` bytes, leading zeros not counted. -/
def fromSlice (bytes : Bytes) : Outcome Error BigNum :=
  if bytes.length < 2 ^ 31 then .ofOption (.crate "openssl") (ofNat? (BigEndian.ofBytes bytes))
  else .panic

/-- `BigNum::to_vec`. -/
def toVec (bn : BigNum) : Bytes := BigEndian.toBytes bn.val

/-- `&a - &b`, which may be negative. -/
def sub (a b : BigNum) : Int := (a.val : Int) - (b.val : Int)

theorem toNat_tmod_le (a : Nat) (m : Int) : (Int.tmod a m).toNat ≤ a := by
  have habs : ((Int.tmod a m).toNat : Int) = Int.tmod a m :=
    Int.toNat_of_nonneg (Int.tmod_nonneg m (Int.natCast_nonneg a))
  have hmod : (Int.tmod a m).natAbs = a % m.natAbs := by rw [Int.natAbs_tmod, Int.natAbs_natCast]
  have hle := Nat.mod_le a m.natAbs
  omega

/-- A number below one that there is room for. -/
theorem length_toBytes_of_le {a : BigNum} {n : Nat} (h : n ≤ a.val) :
    (BigEndian.toBytes n).length ≤ maxBytes :=
  (BigEndian.length_toBytes_mono h).trans a.length_le

/-- `a` modulo `m`. -/
def mod (a : BigNum) (m : Nat) : BigNum :=
  ⟨a.val % m, length_toBytes_of_le (Nat.mod_le a.val m)⟩

/-- `&a % &m`: the remainder takes the sign of `a`, and a zero divisor is a panic. -/
def rem (a : BigNum) (m : Int) : Outcome Error BigNum :=
  if m = 0 then .panic
  else .ok ⟨(Int.tmod a.val m).toNat, length_toBytes_of_le (toNat_tmod_le a.val m)⟩

end BigNum

/-- The bytes of a string. -/
def utf8 (s : String) : Bytes := s.toByteArray.data.toList

/-- `String::from_utf8`. -/
def fromUtf8 (bytes : Bytes) : Option String := String.fromUTF8? ⟨bytes.toArray⟩

@[simp] theorem fromUtf8_utf8 (s : String) : fromUtf8 (utf8 s) = some s := by
  have h : (ByteArray.mk s.toByteArray.data.toList.toArray).IsValidUTF8 := by
    simpa using s.isValidUTF8
  rw [fromUtf8, utf8, String.fromUTF8?, dif_pos h, Option.some.injEq]
  apply String.toByteArray_inj.1
  rfl

theorem fromUtf8_eq_some_iff {bytes : Bytes} {s : String} :
    fromUtf8 bytes = some s ↔ bytes = utf8 s := by
  constructor
  · intro h
    rw [fromUtf8, String.fromUTF8?] at h
    split at h
    · rw [Option.some.injEq] at h
      subst h
      rfl
    · cases h
  · rintro rfl
    exact fromUtf8_utf8 s

/-! ## Readers -/

/-- `read_exact` into a buffer of `n` bytes. -/
def readExact (n : Nat) : Read Bytes := fun bs =>
  if n ≤ bs.length then .ok (bs.take n, bs.drop n) else .err (.io .unexpectedEof)

/-- `read_u8` -/
def readU8 : Read UInt8
  | b :: rest => .ok (b, rest)
  | [] => .err (.io .unexpectedEof)

/-- `read_u32::<BigEndian>`. -/
def readU32 : Read Nat
  | b₀ :: b₁ :: b₂ :: b₃ :: rest => .ok (BigEndian.ofWord b₀ b₁ b₂ b₃, rest)
  | _ => .err (.io .unexpectedEof)

/-- A length and as many bytes. -/
def readString : Read Bytes := do
  let len ← readU32.mapErr (.wrap "read len")
  (readExact len).mapErr (.wrap "read content")

/-- A string that has to be UTF-8. -/
def readStringUtf8 : Read String := do
  let content ← readString
  match fromUtf8 content with
  | some s => pure s
  | none => Decoder.fail (.wrap "decode string" .fromUtf8)

/-- A string as the unsigned number that it denotes. The error for one that OpenSSL has no room for
is unwrapped. -/
def readMpint : Read BigNum := do
  let content ← readString
  Decoder.lift (BigNum.fromSlice content).unwrap

/-! ## Writers -/

/-- `write_u32::<BigEndian>` of a number below `2 ^ 32`. -/
def writeU32 (n : Nat) : Bytes := BigEndian.toWord n

/-- The length is cast with `as u32`. -/
def writeString (data : Bytes) : Bytes := writeU32 (data.length % 2 ^ 32) ++ data

/-- `bytes[0]` panics on the empty vector of zero. -/
def writeMpint (bn : BigNum) : Outcome Error Bytes :=
  match bn.toVec with
  | [] => .panic
  | b :: bs => .ok (writeString (if b &&& 0x80 > 0 then 0 :: b :: bs else b :: bs))

/-! ## What the readers accept -/

theorem readExact_eq_ok_iff {n : Nat} {bs s rest : Bytes} :
    readExact n bs = .ok (s, rest) ↔ s.length = n ∧ bs = s ++ rest := by
  by_cases h : n ≤ bs.length
  · simp only [readExact, if_pos h, Outcome.ok.injEq, Prod.mk.injEq]
    constructor
    · rintro ⟨rfl, rfl⟩
      exact ⟨List.length_take_of_le h, (List.take_append_drop n bs).symm⟩
    · rintro ⟨rfl, rfl⟩
      exact ⟨List.take_left, List.drop_left⟩
  · simp only [readExact, if_neg h, reduceCtorEq, false_iff]
    rintro ⟨rfl, rfl⟩
    rw [List.length_append] at h
    omega

theorem readU32_eq_ok_iff {bs rest : Bytes} {n : Nat} :
    readU32 bs = .ok (n, rest) ↔ n < 2 ^ 32 ∧ bs = writeU32 n ++ rest := by
  constructor
  · intro h
    rcases bs with _ | ⟨b₀, _ | ⟨b₁, _ | ⟨b₂, _ | ⟨b₃, tail⟩⟩⟩⟩
    -- with fewer than four bytes there is no number
    all_goals simp only [readU32, reduceCtorEq, Outcome.ok.injEq, Prod.mk.injEq] at h
    obtain ⟨rfl, rfl⟩ := h
    refine ⟨BigEndian.ofWord_lt _ _ _ _, ?_⟩
    rw [writeU32, BigEndian.toWord_ofWord]
    rfl
  · rintro ⟨hn, rfl⟩
    show Outcome.ok (BigEndian.ofWord _ _ _ _, rest) = _
    rw [BigEndian.ofWord_toWord hn]

theorem length_writeU32 (n : Nat) : (writeU32 n).length = 4 := BigEndian.length_toWord n

/-- Reading a number consumes four bytes. -/
theorem length_of_readU32 {bs rest : Bytes} {n : Nat} (h : readU32 bs = .ok (n, rest)) :
    bs.length = 4 + rest.length := by
  rw [(readU32_eq_ok_iff.1 h).2, List.length_append, length_writeU32]

/-- **Accepted strings.** A string is read exactly from the length prefix of a string shorter than
`2 ^ 32` followed by that string; all that follows is left. -/
theorem readString_eq_ok_iff {bs s rest : Bytes} :
    readString bs = .ok (s, rest) ↔ s.length < 2 ^ 32 ∧ bs = writeString s ++ rest := by
  rw [readString, Decoder.bind_eq_ok_iff]
  constructor
  -- what was read is a prefix below `2 ^ 32` and as many bytes
  · rintro ⟨len, mid, hlen, hs⟩
    obtain ⟨hlt, rfl⟩ := readU32_eq_ok_iff.1 (Outcome.mapErr_eq_ok_iff.1 hlen)
    obtain ⟨rfl, rfl⟩ := readExact_eq_ok_iff.1 (Outcome.mapErr_eq_ok_iff.1 hs)
    refine ⟨hlt, ?_⟩
    rw [writeString, Nat.mod_eq_of_lt hlt, List.append_assoc]
  · rintro ⟨hlt, rfl⟩
    refine ⟨s.length, s ++ rest, ?_, ?_⟩
    · refine Outcome.mapErr_eq_ok_iff.2 (readU32_eq_ok_iff.2 ⟨hlt, ?_⟩)
      rw [writeString, Nat.mod_eq_of_lt hlt, List.append_assoc]
    · exact Outcome.mapErr_eq_ok_iff.2 (readExact_eq_ok_iff.2 ⟨rfl, rfl⟩)

theorem readStringUtf8_eq_ok_iff {bs rest : Bytes} {s : String} :
    readStringUtf8 bs = .ok (s, rest) ↔ readString bs = .ok (utf8 s, rest) := by
  rw [readStringUtf8, Decoder.bind_eq_ok_iff]
  constructor
  · rintro ⟨content, mid, hc, hs⟩
    cases hu : fromUtf8 content with
    | none => simp [hu] at hs
    | some t =>
        simp only [hu, Decoder.pure_apply, Outcome.ok.injEq, Prod.mk.injEq] at hs
        obtain ⟨rfl, rfl⟩ := hs
        rw [hc, fromUtf8_eq_some_iff.1 hu]
  · intro h
    exact ⟨utf8 s, rest, h, by simp⟩

/-- The bytes are a number of OpenSSL. -/
def NumberField (field : Bytes) : Prop :=
  field.length < 2 ^ 31 ∧ (BigEndian.toBytes (BigEndian.ofBytes field)).length ≤ maxBytes

instance : DecidablePred NumberField := fun _ => instDecidableAnd

namespace BigNum

theorem ofNat?_eq_some_iff {n : Nat} {bn : BigNum} : ofNat? n = some bn ↔ n = bn.val := by
  rcases bn with ⟨val, hval⟩
  rw [ofNat?]
  split
  · next h => rw [Option.some.injEq, mk.injEq]
  · next h =>
      refine iff_of_false nofun ?_
      rintro rfl
      exact h hval

theorem fromSlice_eq_ok_iff {bytes : Bytes} {bn : BigNum} :
    fromSlice bytes = .ok bn ↔ NumberField bytes ∧ BigEndian.ofBytes bytes = bn.val := by
  rw [fromSlice, NumberField]
  by_cases h : bytes.length < 2 ^ 31
  · rw [if_pos h, Outcome.ofOption_eq_ok_iff, ofNat?_eq_some_iff]
    constructor
    · intro hval
      exact ⟨⟨h, by rw [hval]; exact bn.length_le⟩, hval⟩
    · exact And.right
  · rw [if_neg h]
    exact iff_of_false nofun fun hok => h hok.1.1

/-- The number of bytes that are one. -/
theorem exists_fromSlice_iff {bytes : Bytes} :
    (∃ bn, fromSlice bytes = .ok bn) ↔ NumberField bytes := by
  constructor
  · rintro ⟨bn, h⟩
    exact (fromSlice_eq_ok_iff.1 h).1
  · intro h
    exact ⟨⟨BigEndian.ofBytes bytes, h.2⟩, fromSlice_eq_ok_iff.2 ⟨h, rfl⟩⟩

@[simp] theorem val_zero : (0 : BigNum).val = 0 := rfl

@[simp] theorem val_one : (1 : BigNum).val = 1 := by
  have h : (BigEndian.toBytes 1).length ≤ maxBytes := by decide
  show ((ofNat? 1).getD _).val = 1
  rw [ofNat?, dif_pos h]
  rfl

theorem val_injective {a b : BigNum} (h : a.val = b.val) : a = b := by
  rcases a with ⟨val, ha⟩
  cases h
  rfl

theorem eq_zero_iff {bn : BigNum} : bn = 0 ↔ bn.val = 0 :=
  ⟨fun h => by rw [h, val_zero], fun h => val_injective (h.trans val_zero.symm)⟩

end BigNum

theorem readMpint_eq_ok_iff {bs rest : Bytes} {n : BigNum} :
    readMpint bs = .ok (n, rest) ↔
      ∃ field, readString bs = .ok (field, rest) ∧ NumberField field ∧
        BigEndian.ofBytes field = n.val := by
  rw [readMpint, Decoder.bind_eq_ok_iff]
  simp only [Decoder.lift_eq_ok_iff, Outcome.unwrap_eq_ok_iff, BigNum.fromSlice_eq_ok_iff]
  constructor
  · rintro ⟨field, mid, hfield, hn, rfl⟩
    exact ⟨field, hfield, hn⟩
  · rintro ⟨field, hfield, hn⟩
    exact ⟨field, rest, hfield, hn, rfl⟩

/-- The mask leaves a set first bit. -/
theorem and_highBit_pos_iff (b : UInt8) : b &&& 0x80 > 0 ↔ 128 ≤ b.toNat := by
  have hlt : b.toNat < 256 := b.toNat_lt
  have hmask : b.toNat &&& 2 ^ 7 = 2 ^ 7 * (b.toNat.testBit 7).toNat := by
    rw [Nat.and_comm, Nat.two_pow_and]
  have hbit : b.toNat.testBit 7 = true ↔ 128 ≤ b.toNat := by
    rw [Nat.testBit_eq_decide_div_mod_eq, decide_eq_true_iff]
    omega
  have hpos : 0 < b.toNat &&& 2 ^ 7 ↔ b.toNat.testBit 7 = true := by
    rw [hmask]
    cases b.toNat.testBit 7 <;> simp
  rw [gt_iff_lt, UInt8.lt_iff_toNat_lt, UInt8.toNat_and]
  exact hpos.trans hbit

/-- **Written integers.** An integer that is not zero is written as its shortest string. -/
theorem writeMpint_eq_ok_iff {bn : BigNum} {bytes : Bytes} :
    writeMpint bn = .ok bytes ↔ bn ≠ 0 ∧ bytes = writeString (TwosComplement.ofNat bn.val) := by
  rw [Ne, BigNum.eq_zero_iff, ← BigEndian.toBytes_eq_nil_iff, writeMpint, TwosComplement.ofNat,
    BigNum.toVec]
  cases BigEndian.toBytes bn.val with
  | nil => simp
  | cons b bs =>
      simp only [and_highBit_pos_iff, Outcome.ok.injEq, reduceCtorEq, not_false_iff, true_and]
      exact eq_comm

theorem ofBytes_of_canonical {n : Nat} {field : Bytes} (h : TwosComplement.Canonical n field) :
    BigEndian.ofBytes field = n := (TwosComplement.signed_eq_natCast_iff.1 h.value).1

/-- A number is read back from its shortest string. -/
theorem numberField_of_canonical {bn : BigNum} {field : Bytes}
    (h : TwosComplement.Canonical bn.val field) : NumberField field := by
  have hlength : field.length ≤ bn.toVec.length + 1 := by
    rw [TwosComplement.canonical_natCast_iff.1 h]
    exact TwosComplement.length_ofNat_le bn.val
  have hmax : bn.toVec.length ≤ maxBytes := bn.length_le
  have hsmall : maxBytes + 1 < 2 ^ 31 := by decide
  refine ⟨by omega, ?_⟩
  rw [ofBytes_of_canonical h]
  exact bn.length_le

theorem length_writeString (data : Bytes) : (writeString data).length = 4 + data.length := by
  rw [writeString, List.length_append, length_writeU32]

theorem readU32_writeU32 {n : Nat} (h : n < 2 ^ 32) (rest : Bytes) :
    readU32 (writeU32 n ++ rest) = .ok (n, rest) := readU32_eq_ok_iff.2 ⟨h, rfl⟩

theorem readString_writeString {s : Bytes} (h : s.length < 2 ^ 32) (rest : Bytes) :
    readString (writeString s ++ rest) = .ok (s, rest) := readString_eq_ok_iff.2 ⟨h, rfl⟩

theorem readMpint_writeString {field : Bytes} {n : BigNum} (h : NumberField field)
    (hn : BigEndian.ofBytes field = n.val) (rest : Bytes) :
    readMpint (writeString field ++ rest) = .ok (n, rest) :=
  readMpint_eq_ok_iff.2
    ⟨field, readString_writeString (h.1.trans (by decide)) rest, h, hn⟩

theorem readStringUtf8_writeString {s : String} (h : (utf8 s).length < 2 ^ 32) (rest : Bytes) :
    readStringUtf8 (writeString (utf8 s) ++ rest) = .ok (s, rest) :=
  readStringUtf8_eq_ok_iff.2 (readString_writeString h rest)

/-! ## What panics -/

theorem readU32_ne_panic (bs : Bytes) : readU32 bs ≠ .panic := by
  unfold readU32
  split <;> simp

theorem readString_ne_panic (bs : Bytes) : readString bs ≠ .panic := by
  rw [readString, Ne, Decoder.bind_eq_panic_iff]
  rintro (h | ⟨len, mid, -, h⟩)
  · exact readU32_ne_panic bs (Outcome.mapErr_eq_panic_iff.1 h)
  · have h' := Outcome.mapErr_eq_panic_iff.1 h
    unfold readExact at h'
    split at h' <;> cases h'

theorem readStringUtf8_ne_panic (bs : Bytes) : readStringUtf8 bs ≠ .panic := by
  rw [readStringUtf8, Ne, Decoder.bind_eq_panic_iff]
  rintro (h | ⟨content, mid, -, h⟩)
  · exact readString_ne_panic bs h
  · cases hu : fromUtf8 content <;> simp [hu] at h

/-- Reading an integer panics exactly on a complete string that is no number of OpenSSL. -/
theorem readMpint_eq_panic_iff {bs : Bytes} :
    readMpint bs = .panic ↔
      ∃ field rest, readString bs = .ok (field, rest) ∧ ¬ NumberField field := by
  rw [readMpint, Decoder.bind_eq_panic_iff]
  simp only [readString_ne_panic, false_or, Decoder.lift_eq_panic_iff, Outcome.unwrap_eq_panic_iff,
    ← BigNum.exists_fromSlice_iff, not_exists, ne_eq]

/-- The bytes begin with complete strings, at most `count` of them, and one is no number of
OpenSSL. -/
def OversizedField (count : Nat) (bs : Bytes) : Prop :=
  ∃ (fields : List Bytes) (rest : Bytes), fields.length ≤ count ∧
    (∀ field ∈ fields, field.length < 2 ^ 32) ∧ bs = fields.flatMap writeString ++ rest ∧
    ∃ field ∈ fields, ¬ NumberField field

theorem not_oversizedField_zero (bs : Bytes) : ¬ OversizedField 0 bs := by
  rintro ⟨fields, rest, hcount, -, -, field, hfield, -⟩
  rw [List.length_eq_zero_iff.1 (Nat.le_zero.1 hcount)] at hfield
  cases hfield

/-- Reading an integer and what follows it. -/
theorem bind_readMpint_eq_panic_iff {α : Type} {f : BigNum → Read α} {count : Nat} {bs : Bytes}
    (hf : ∀ n mid, f n mid = .panic ↔ OversizedField count mid) :
    (readMpint >>= f) bs = .panic ↔ OversizedField (count + 1) bs := by
  rw [Decoder.bind_eq_panic_iff, readMpint_eq_panic_iff]
  simp only [hf, readMpint_eq_ok_iff, readString_eq_ok_iff]
  constructor
  · rintro (⟨field, rest, ⟨hlt, rfl⟩, hfield⟩ |
      ⟨n, mid, ⟨field, ⟨hlt, rfl⟩, -⟩, fields, rest, hcount, hshort, rfl, hbig⟩)
    · exact ⟨[field], rest, by simp, by simpa using hlt, by simp, field, by simp, hfield⟩
    · refine ⟨field :: fields, rest, by simpa using hcount, ?_, by simp, ?_⟩
      · exact List.forall_mem_cons.2 ⟨hlt, hshort⟩
      · obtain ⟨big, hmem, hbig⟩ := hbig
        exact ⟨big, List.mem_cons_of_mem field hmem, hbig⟩
  · rintro ⟨fields, rest, hcount, hshort, rfl, big, hmem, hbig⟩
    cases fields with
    | nil => cases hmem
    | cons field fields =>
        obtain ⟨hlt, hshort⟩ := List.forall_mem_cons.1 hshort
        rw [List.flatMap_cons, List.append_assoc]
        -- the first string is the one, or it is read and a later one is
        by_cases hfield : NumberField field
        · obtain ⟨n, hn⟩ := BigNum.exists_fromSlice_iff.2 hfield
          have hmem' : big ∈ fields := by
            rcases List.mem_cons.1 hmem with rfl | hmem'
            · exact absurd hfield hbig
            · exact hmem'
          refine Or.inr ⟨n, _, ⟨field, ⟨hlt, rfl⟩, BigNum.fromSlice_eq_ok_iff.1 hn⟩, fields, rest,
            by simpa using hcount, hshort, rfl, big, hmem', hbig⟩
        · exact Or.inl ⟨field, _, ⟨hlt, rfl⟩, hfield⟩

/-- Writing an integer panics exactly on zero, whose byte vector is empty. -/
theorem writeMpint_eq_panic_iff {bn : BigNum} : writeMpint bn = .panic ↔ bn = 0 := by
  rw [BigNum.eq_zero_iff, ← BigEndian.toBytes_eq_nil_iff]
  -- `bytes[0]` is out of range exactly for the empty vector
  show writeMpint bn = .panic ↔ bn.toVec = []
  unfold writeMpint
  cases bn.toVec <;> simp

theorem exists_writeMpint_eq_ok {bn : BigNum} (h : bn ≠ 0) :
    ∃ bytes, writeMpint bn = .ok bytes := ⟨_, writeMpint_eq_ok_iff.2 ⟨h, rfl⟩⟩

/-- A divisor of zero is the only one that panics. -/
theorem BigNum.rem_eq_panic_iff {a : BigNum} {m : Int} : BigNum.rem a m = .panic ↔ m = 0 := by
  by_cases hm : m = 0
  · simp [BigNum.rem, hm]
  · simp [BigNum.rem, hm]

theorem BigNum.exists_rem_of_ne_zero (a : BigNum) {m : Int} (h : m ≠ 0) :
    ∃ r, BigNum.rem a m = .ok r ∧ r.val = (Int.tmod a.val m).toNat := ⟨_, if_neg h, rfl⟩

theorem BigNum.sub_one_eq_zero_iff {a : BigNum} : BigNum.sub a 1 = 0 ↔ a = 1 := by
  rw [BigNum.sub, Int.sub_eq_zero, Int.ofNat_inj]
  exact ⟨BigNum.val_injective, congrArg BigNum.val⟩

end SshKeys
