import SshKeys.Key

/-!
# The byte formats of keys

The public key blob and the key of an `ADD_IDENTITY` request as formats of their own, compared with
`PublicKey::encode`, `PublicKey::decode` and `KeyPair::from_wire`. An integer of the format is the
shortest two's complement string of its value (`TwosComplement.Canonical`); the readers take any
string for its unsigned value, if OpenSSL has room for it (`NumberField`).

`public_key_codec_iff` collects what the codec of public keys does and on which bytes decoding
panics instead, `key_pair_fromWire_iff` which requests are accepted, with what result, and on which
the reader panics instead.
-/

set_option autoImplicit false

namespace SshKeys

open Lib
open Lib.TwosComplement (Canonical)

/-! ## Public key blobs -/

/-- The string at the front of some bytes is determined by them. -/
theorem writeString_append_inj {s s' rest rest' : Bytes} (hs : s.length < 2 ^ 32)
    (hs' : s'.length < 2 ^ 32) (h : writeString s ++ rest = writeString s' ++ rest') :
    s = s' ∧ rest = rest' := by
  have hread := readString_writeString hs rest
  rw [h, readString_writeString hs' rest', Outcome.ok.injEq, Prod.mk.injEq] at hread
  exact ⟨hread.1.symm, hread.2.symm⟩

/-- The bytes begin with a blob of the two strings. -/
structure BlobOf (buf eField nField : Bytes) : Prop where
  e_lt : eField.length < 2 ^ 32
  n_lt : nField.length < 2 ^ 32
  blob : ∃ rest, buf = publicBlob eField nField ++ rest

theorem BlobOf.unique {buf eField nField eField' nField' : Bytes} (h : BlobOf buf eField nField)
    (h' : BlobOf buf eField' nField') : eField = eField' ∧ nField = nField' := by
  obtain ⟨rest, hrest⟩ := h.blob
  obtain ⟨rest', hrest'⟩ := h'.blob
  have htype : (utf8 "ssh-rsa").length < 2 ^ 32 := by decide
  have heq := hrest.symm.trans hrest'
  rw [publicBlob, publicBlob, List.append_assoc, List.append_assoc, List.append_assoc,
    List.append_assoc] at heq
  -- the type, the first string and the second one
  obtain ⟨-, heq⟩ := writeString_append_inj htype htype heq
  obtain ⟨he, heq⟩ := writeString_append_inj h.e_lt h'.e_lt heq
  exact ⟨he, (writeString_append_inj h.n_lt h'.n_lt heq).1⟩

/-- Bytes are decoded exactly when they begin with a blob, to the unsigned values of its strings. -/
def DecodesFields (buf : Bytes) : Prop :=
  ((∃ k, PublicKey.decode buf = .ok k) ↔ ∃ eField nField, BlobOf buf eField nField) ∧
    ∀ e n eField nField, PublicKey.decode buf = .ok (.rsa e n) → BlobOf buf eField nField →
      e.val = BigEndian.ofBytes eField ∧ n.val = BigEndian.ofBytes nField

/-- What is decoded begins with a blob of numbers. -/
theorem exists_blobOf_of_decode {buf : Bytes} {e n : BigNum}
    (h : PublicKey.decode buf = .ok (.rsa e n)) :
    ∃ eField nField, BlobOf buf eField nField ∧ NumberField eField ∧ NumberField nField ∧
      BigEndian.ofBytes eField = e.val ∧ BigEndian.ofBytes nField = n.val := by
  obtain ⟨eField, nField, rest, he, hn, hbuf, heVal, hnVal⟩ := PublicKey.decode_eq_ok_iff.1 h
  have hblob : BlobOf buf eField nField :=
    ⟨he.1.trans (by decide), hn.1.trans (by decide), rest, hbuf⟩
  exact ⟨eField, nField, hblob, he, hn, heVal, hnVal⟩

theorem decodesFields_iff {buf : Bytes} :
    DecodesFields buf ↔ ∀ eField nField, BlobOf buf eField nField →
      NumberField eField ∧ NumberField nField := by
  constructor
  · rintro ⟨hdecodes, -⟩ eField nField hblob
    obtain ⟨⟨e, n⟩, hk⟩ := hdecodes.2 ⟨eField, nField, hblob⟩
    obtain ⟨eField', nField', hblob', he, hn, -⟩ := exists_blobOf_of_decode hk
    obtain ⟨rfl, rfl⟩ := hblob.unique hblob'
    exact ⟨he, hn⟩
  · intro hnumbers
    refine ⟨⟨?_, ?_⟩, ?_⟩
    · rintro ⟨⟨e, n⟩, hk⟩
      obtain ⟨eField, nField, hblob, -⟩ := exists_blobOf_of_decode hk
      exact ⟨eField, nField, hblob⟩
    · rintro ⟨eField, nField, hblob⟩
      obtain ⟨he, hn⟩ := hnumbers eField nField hblob
      obtain ⟨rest, hrest⟩ := hblob.blob
      exact ⟨.rsa ⟨_, he.2⟩ ⟨_, hn.2⟩,
        PublicKey.decode_eq_ok_iff.2 ⟨eField, nField, rest, he, hn, hrest, rfl, rfl⟩⟩
    · intro e n eField nField hk hblob
      obtain ⟨eField', nField', hblob', -, -, heVal, hnVal⟩ := exists_blobOf_of_decode hk
      obtain ⟨rfl, rfl⟩ := hblob.unique hblob'
      exact ⟨heVal.symm, hnVal.symm⟩

/-- **The codec of public keys.** A key is encoded when neither number is zero, as the shortest
integers of the two, and read back from that with anything behind it. So different keys have
different encodings, and encoding what was decoded gives the shortest form, which does not change
any more. Decoding succeeds exactly on what begins with two complete strings behind the key type,
with their values, as long as neither has more significant bytes than OpenSSL takes. -/
theorem public_key_codec_iff (buf : Bytes) :
    (∀ e n : BigNum, ((∃ blob, (PublicKey.rsa e n).encode = .ok blob) ↔ e ≠ 0 ∧ n ≠ 0) ∧
      ∀ blob, (PublicKey.rsa e n).encode = .ok blob →
        ∃ eField nField, Canonical e.val eField ∧ Canonical n.val nField ∧
          blob = publicBlob eField nField ∧
          ∀ rest, PublicKey.decode (blob ++ rest) = .ok (.rsa e n)) ∧
    (DecodesFields buf ↔ ∀ eField nField, BlobOf buf eField nField →
      NumberField eField ∧ NumberField nField) ∧
    (∀ (k k' : PublicKey) (blob : Bytes), k.encode = .ok blob → k'.encode = .ok blob → k = k') ∧
    ∀ e n : BigNum, PublicKey.decode buf = .ok (.rsa e n) → e ≠ 0 → n ≠ 0 →
      ∃ eShort nShort, Canonical e.val eShort ∧ Canonical n.val nShort ∧
        (PublicKey.decode buf >>= PublicKey.encode) = .ok (publicBlob eShort nShort) ∧
        (PublicKey.decode (publicBlob eShort nShort) >>= PublicKey.encode) =
          .ok (publicBlob eShort nShort) := by
  refine ⟨?_, decodesFields_iff, ?_, ?_⟩
  · intro e n
    refine ⟨by simp only [PublicKey.encode_eq_ok_iff, exists_and_left, exists_eq, and_true], ?_⟩
    intro blob h
    refine ⟨_, _, TwosComplement.canonical_ofNat e.val, TwosComplement.canonical_ofNat n.val,
      (PublicKey.encode_eq_ok_iff.1 h).2, PublicKey.decode_encode h⟩
  · intro k k' blob h h'
    exact PublicKey.encode_injective h h'
  · intro e n hdecode he hn
    have heShort := TwosComplement.canonical_ofNat e.val
    have hnShort := TwosComplement.canonical_ofNat n.val
    have hencode := PublicKey.encode_eq_ok_iff.2 ⟨⟨he, hn⟩, rfl⟩
    have hagain := PublicKey.decode_publicBlob heShort hnShort []
    rw [List.append_nil] at hagain
    refine ⟨_, _, heShort, hnShort, ?_, ?_⟩
    · rw [hdecode, Outcome.ok_bind]
      exact hencode
    · rw [hagain, Outcome.ok_bind]
      exact hencode

-- a zero byte keeps the first bit of `129` from being a sign
example : (PublicKey.rsa 3 129).encode = .ok (publicBlob [3] [0, 129]) := by decide +kernel

/-- A string of one byte more than OpenSSL takes. -/
def oversized : Bytes := 255 :: List.replicate maxBytes 255

theorem length_oversized : oversized.length = maxBytes + 1 := by
  rw [oversized, List.length_cons, List.length_replicate]

theorem not_numberField_oversized : ¬ NumberField oversized := by
  rintro ⟨-, hle⟩
  have hlength : (BigEndian.toBytes (BigEndian.ofBytes oversized)).length = oversized.length :=
    TwosComplement.length_toBytes_ofBytes (by decide) _
  rw [hlength, length_oversized] at hle
  exact absurd hle (Nat.not_succ_le_self maxBytes)

/-- A complete blob whose exponent has a byte too many is not decoded. -/
theorem oversized_exponent_is_not_decoded : ¬ DecodesFields (publicBlob oversized [3]) := by
  intro h
  have hlt : oversized.length < 2 ^ 32 := by
    rw [length_oversized]
    decide
  have hblob : BlobOf (publicBlob oversized [3]) oversized [3] :=
    ⟨hlt, by decide, [], (List.append_nil _).symm⟩
  exact not_numberField_oversized (decodesFields_iff.1 h _ _ hblob).1

/-! ## Keys in requests -/

/-- The six strings of a private key, in the order of the wire. -/
structure RsaStrings where
  n : Bytes
  e : Bytes
  d : Bytes
  iqmp : Bytes
  p : Bytes
  q : Bytes

namespace RsaStrings

/-- The key type and the six strings. -/
def write (s : RsaStrings) : Bytes :=
  writeString (utf8 "ssh-rsa") ++ writeString s.n ++ writeString s.e ++ writeString s.d ++
    writeString s.iqmp ++ writeString s.p ++ writeString s.q

/-- A length prefix can tell the length of each string. -/
structure Short (s : RsaStrings) : Prop where
  n : s.n.length < 2 ^ 32
  e : s.e.length < 2 ^ 32
  d : s.d.length < 2 ^ 32
  iqmp : s.iqmp.length < 2 ^ 32
  p : s.p.length < 2 ^ 32
  q : s.q.length < 2 ^ 32

/-- OpenSSL takes each string as a number. -/
structure NumberFields (s : RsaStrings) : Prop where
  n : NumberField s.n
  e : NumberField s.e
  d : NumberField s.d
  iqmp : NumberField s.iqmp
  p : NumberField s.p
  q : NumberField s.q

/-- The numbers are the unsigned values of the strings. -/
structure Values (s : RsaStrings) (f : RsaFields) : Prop where
  n : BigEndian.ofBytes s.n = f.n.val
  e : BigEndian.ofBytes s.e = f.e.val
  d : BigEndian.ofBytes s.d = f.d.val
  iqmp : BigEndian.ofBytes s.iqmp = f.iqmp.val
  p : BigEndian.ofBytes s.p = f.p.val
  q : BigEndian.ofBytes s.q = f.q.val

/-- The strings are the integers of the key as a client sends them. -/
structure Encodes (s : RsaStrings) (key : Rsa) : Prop where
  n : Canonical key.n.val s.n
  e : Canonical key.e.val s.e
  d : Canonical key.d.val s.d
  iqmp : Canonical key.iqmp.val s.iqmp
  p : Canonical key.p.val s.p
  q : Canonical key.q.val s.q

variable {s : RsaStrings}

theorem NumberFields.short (h : s.NumberFields) : s.Short := by
  have hlt {field : Bytes} (hfield : NumberField field) : field.length < 2 ^ 32 :=
    hfield.1.trans (by decide)
  exact ⟨hlt h.n, hlt h.e, hlt h.d, hlt h.iqmp, hlt h.p, hlt h.q⟩

theorem NumberFields.exists_values (h : s.NumberFields) : ∃ f, s.Values f :=
  ⟨⟨⟨_, h.n.2⟩, ⟨_, h.e.2⟩, ⟨_, h.d.2⟩, ⟨_, h.iqmp.2⟩, ⟨_, h.p.2⟩, ⟨_, h.q.2⟩⟩, rfl, rfl, rfl, rfl,
    rfl, rfl⟩

theorem Encodes.numberFields {key : Rsa} (h : s.Encodes key) : s.NumberFields :=
  ⟨numberField_of_canonical h.n, numberField_of_canonical h.e, numberField_of_canonical h.d,
    numberField_of_canonical h.iqmp, numberField_of_canonical h.p, numberField_of_canonical h.q⟩

theorem Encodes.values {key : Rsa} (h : s.Encodes key) :
    s.Values { n := key.n, e := key.e, d := key.d, iqmp := key.iqmp, p := key.p, q := key.q } :=
  ⟨ofBytes_of_canonical h.n, ofBytes_of_canonical h.e, ofBytes_of_canonical h.d,
    ofBytes_of_canonical h.iqmp, ofBytes_of_canonical h.p, ofBytes_of_canonical h.q⟩

theorem write_append_inj {s' : RsaStrings} {rest rest' : Bytes} (hs : s.Short) (hs' : s'.Short)
    (h : s.write ++ rest = s'.write ++ rest') : s = s' ∧ rest = rest' := by
  have htype : (utf8 "ssh-rsa").length < 2 ^ 32 := by decide
  rcases s with ⟨n, e, d, iqmp, p, q⟩
  rcases s' with ⟨n', e', d', iqmp', p', q'⟩
  simp only [write, List.append_assoc] at h
  -- one string after the other
  obtain ⟨-, h⟩ := writeString_append_inj htype htype h
  obtain ⟨hn, h⟩ := writeString_append_inj hs.n hs'.n h
  obtain ⟨he, h⟩ := writeString_append_inj hs.e hs'.e h
  obtain ⟨hd, h⟩ := writeString_append_inj hs.d hs'.d h
  obtain ⟨hi, h⟩ := writeString_append_inj hs.iqmp hs'.iqmp h
  obtain ⟨hp, h⟩ := writeString_append_inj hs.p hs'.p h
  obtain ⟨hq, h⟩ := writeString_append_inj hs.q hs'.q h
  rw [mk.injEq]
  exact ⟨⟨hn, he, hd, hi, hp, hq⟩, h⟩

end RsaStrings

/-- The type and the numbers of a private key are read exactly from a type and six complete
strings that OpenSSL takes. -/
theorem RsaFields.read_eq_ok_iff {bs rest : Bytes} {f : RsaFields} :
    RsaFields.read bs = .ok (f, rest) ↔
      ∃ s : RsaStrings, s.NumberFields ∧ bs = s.write ++ rest ∧ s.Values f := by
  rw [RsaFields.read, Decoder.bind_eq_ok_iff]
  constructor
  · rintro ⟨keyType, mid, htype, h⟩
    by_cases hk : keyType = "ssh-rsa"
    · rw [if_pos hk] at h
      simp only [Decoder.bind_eq_ok_iff, readMpint_eq_ok_iff, readString_eq_ok_iff,
        Decoder.pure_apply, Outcome.ok.injEq, Prod.mk.injEq] at h
      -- what is left after each string is what the next one is read from
      obtain ⟨_, _, ⟨n, ⟨-, rfl⟩, hn, hnVal⟩, _, _, ⟨e, ⟨-, rfl⟩, he, heVal⟩,
        _, _, ⟨d, ⟨-, rfl⟩, hd, hdVal⟩, _, _, ⟨iqmp, ⟨-, rfl⟩, hi, hiVal⟩,
        _, _, ⟨p, ⟨-, rfl⟩, hp, hpVal⟩, _, _, ⟨q, ⟨-, rfl⟩, hq, hqVal⟩, rfl, rfl⟩ := h
      obtain ⟨-, rfl⟩ := readString_eq_ok_iff.1 (readStringUtf8_eq_ok_iff.1 htype)
      refine ⟨⟨n, e, d, iqmp, p, q⟩, ⟨hn, he, hd, hi, hp, hq⟩, ?_,
        ⟨hnVal, heVal, hdVal, hiVal, hpVal, hqVal⟩⟩
      simp only [hk, RsaStrings.write, List.append_assoc]
    · rw [if_neg hk] at h
      cases h
  · rintro ⟨⟨n, e, d, iqmp, p, q⟩, ⟨hn, he, hd, hi, hp, hq⟩, rfl,
      ⟨hnVal, heVal, hdVal, hiVal, hpVal, hqVal⟩⟩
    have htype : (utf8 "ssh-rsa").length < 2 ^ 32 := by decide
    simp only [RsaStrings.write, List.append_assoc]
    refine ⟨_, _, readStringUtf8_writeString htype _, ?_⟩
    rw [if_pos rfl]
    refine Decoder.bind_eq_ok_iff.2 ⟨_, _, readMpint_writeString hn hnVal _, ?_⟩
    refine Decoder.bind_eq_ok_iff.2 ⟨_, _, readMpint_writeString he heVal _, ?_⟩
    refine Decoder.bind_eq_ok_iff.2 ⟨_, _, readMpint_writeString hd hdVal _, ?_⟩
    refine Decoder.bind_eq_ok_iff.2 ⟨_, _, readMpint_writeString hi hiVal _, ?_⟩
    refine Decoder.bind_eq_ok_iff.2 ⟨_, _, readMpint_writeString hp hpVal _, ?_⟩
    exact Decoder.bind_eq_ok_iff.2 ⟨_, _, readMpint_writeString hq hqVal _, rfl⟩

/-- The remainder of `d` by the number before a prime from `2` on. -/
theorem BigNum.reduced_of_eq_mod {d p r : BigNum} (h : 2 ≤ p.val) (hr : r = d.mod (p.val - 1)) :
    r.val < p.val - 1 ∧ r.val ≡ d.val [MOD p.val - 1] := by
  subst hr
  exact ⟨Nat.mod_lt _ (Nat.sub_pos_of_lt h), Nat.mod_modEq _ _⟩

/-- The exponent for a prime that is not `1`. -/
theorem BigNum.exists_rem_sub_one (d : BigNum) {p : BigNum} (h : p ≠ 1) :
    ∃ r, BigNum.rem d (BigNum.sub p 1) = .ok r ∧ (2 ≤ p.val → r = d.mod (p.val - 1)) := by
  have hne : BigNum.sub p 1 ≠ 0 := fun h0 => h (BigNum.sub_one_eq_zero_iff.1 h0)
  obtain ⟨r, hr, hval⟩ := BigNum.exists_rem_of_ne_zero d hne
  refine ⟨r, hr, ?_⟩
  intro h2
  have hsub : BigNum.sub p 1 = ((p.val - 1 : Nat) : Int) := by
    rw [BigNum.sub, BigNum.val_one]
    exact (Int.ofNat_sub (Nat.le_of_succ_le h2)).symm
  apply BigNum.val_injective
  rw [hval, hsub, ← Int.ofNat_tmod, Int.toNat_natCast]
  rfl

/-- The key of the six numbers. -/
theorem RsaFields.exists_toKey {f : RsaFields} (hp : f.p ≠ 1) (hq : f.q ≠ 1) :
    ∃ dp dq, f.toKey =
        .ok (.rsa (Rsa.fromPrivateComponents f.n f.e f.d f.p f.q dp dq f.iqmp)) ∧
      (2 ≤ f.p.val → dp = f.d.mod (f.p.val - 1)) ∧
      (2 ≤ f.q.val → dq = f.d.mod (f.q.val - 1)) := by
  obtain ⟨dp, hdp, hdpMod⟩ := BigNum.exists_rem_sub_one f.d hp
  obtain ⟨dq, hdq, hdqMod⟩ := BigNum.exists_rem_sub_one f.d hq
  refine ⟨dp, dq, ?_, hdpMod, hdqMod⟩
  rw [toKey, hdp, hdq]
  rfl

/-- A key pair is read exactly from a private key whose numbers can be computed with, and a complete
string that is a name. -/
theorem KeyPair.fromWire_eq_ok_iff {bs rest : Bytes} {keyPair : KeyPair} :
    KeyPair.fromWire bs = .ok (keyPair, rest) ↔
      ∃ (s : RsaStrings) (f : RsaFields) (name : String) (privateKey : PrivateKey),
        s.NumberFields ∧ s.Values f ∧ (utf8 name).length < 2 ^ 32 ∧
        bs = s.write ++ writeString (utf8 name) ++ rest ∧
        f.toKey = .ok privateKey ∧ keyPair = KeyPair.new privateKey name := by
  simp only [KeyPair.fromWire, PrivateKey.fromWire_eq, Decoder.bind_eq_ok_iff,
    Decoder.mapErr_apply, Outcome.mapErr_eq_ok_iff, Decoder.lift_eq_ok_iff,
    RsaFields.read_eq_ok_iff, readStringUtf8_eq_ok_iff, readString_eq_ok_iff, Decoder.pure_apply,
    Outcome.ok.injEq, Prod.mk.injEq]
  constructor
  · rintro ⟨privateKey, _, ⟨f, _, ⟨s, hs, rfl, hf⟩, hkey, rfl⟩, name, _, ⟨hname, rfl⟩, rfl, rfl⟩
    refine ⟨s, f, name, privateKey, hs, hf, hname, ?_, hkey, rfl⟩
    rw [List.append_assoc]
  · rintro ⟨s, f, name, privateKey, hs, hf, hname, rfl, hkey, rfl⟩
    refine ⟨privateKey, _, ⟨f, _, ⟨s, hs, ?_, hf⟩, hkey, rfl⟩, name, rest, ⟨hname, rfl⟩, rfl, rfl⟩
    rw [List.append_assoc]

/-- The bytes begin with the key type, the six strings and the name, and no prime is `1`. -/
structure KeyMessage (bs : Bytes) (s : RsaStrings) (name : String) (rest : Bytes) : Prop where
  short : s.Short
  name_lt : (utf8 name).length < 2 ^ 32
  eq : bs = s.write ++ writeString (utf8 name) ++ rest
  p_ne : BigEndian.ofBytes s.p ≠ 1
  q_ne : BigEndian.ofBytes s.q ≠ 1

theorem KeyMessage.strings_unique {bs rest rest' : Bytes} {s s' : RsaStrings} {name name' : String}
    (h : KeyMessage bs s name rest) (h' : KeyMessage bs s' name' rest') : s = s' := by
  have heq := h.eq.symm.trans h'.eq
  rw [List.append_assoc, List.append_assoc] at heq
  exact (RsaStrings.write_append_inj h.short h'.short heq).1

/-- What is read from six strings and a name. -/
theorem KeyMessage.exists_fromWire {bs rest : Bytes} {s : RsaStrings} {name : String}
    {f : RsaFields} (h : KeyMessage bs s name rest) (hs : s.NumberFields) (hf : s.Values f) :
    ∃ dp dq, KeyPair.fromWire bs = .ok (KeyPair.new
          (.rsa (Rsa.fromPrivateComponents f.n f.e f.d f.p f.q dp dq f.iqmp)) name, rest) ∧
      (2 ≤ f.p.val → dp = f.d.mod (f.p.val - 1)) ∧
      (2 ≤ f.q.val → dq = f.d.mod (f.q.val - 1)) := by
  have hp : f.p ≠ 1 := by
    intro hp
    exact h.p_ne (by rw [hf.p, hp, BigNum.val_one])
  have hq : f.q ≠ 1 := by
    intro hq
    exact h.q_ne (by rw [hf.q, hq, BigNum.val_one])
  obtain ⟨dp, dq, hkey, hdp, hdq⟩ := RsaFields.exists_toKey hp hq
  exact ⟨dp, dq, KeyPair.fromWire_eq_ok_iff.2 ⟨s, f, name, _, hs, hf, h.name_lt, h.eq, hkey, rfl⟩,
    hdp, hdq⟩

/-- What is read begins with six strings that are numbers, and a name. -/
theorem exists_keyMessage_of_fromWire {bs rest : Bytes} {keyPair : KeyPair}
    (h : KeyPair.fromWire bs = .ok (keyPair, rest)) :
    ∃ s name, KeyMessage bs s name rest ∧ s.NumberFields := by
  obtain ⟨s, f, name, privateKey, hs, hf, hname, hbs, hkey, -⟩ := KeyPair.fromWire_eq_ok_iff.1 h
  -- a divisor of zero is a panic, so a key has none
  have hzero : ¬ f.ZeroDivisor := by
    intro hzero
    rw [RsaFields.toKey_eq_panic_iff.2 hzero] at hkey
    cases hkey
  obtain ⟨hp, hq⟩ := not_or.1 hzero
  refine ⟨s, name, ⟨hs.short, hname, hbs, ?_, ?_⟩, hs⟩
  · intro hp1
    exact hp (BigNum.val_injective (by rw [← hf.p, hp1, BigNum.val_one]))
  · intro hq1
    exact hq (BigNum.val_injective (by rw [← hf.q, hq1, BigNum.val_one]))

/-- The pair holds the values of the strings and the name, and for primes from `2` on the exponents
are the remainders of `d`. -/
def HoldsStrings (keyPair : KeyPair) (s : RsaStrings) (name : String) : Prop :=
  ∃ key, keyPair.name = name ∧ keyPair.privateKey = .rsa key ∧
    keyPair.publicKey = .rsa key.e key.n ∧
    s.Values { n := key.n, e := key.e, d := key.d, iqmp := key.iqmp, p := key.p, q := key.q } ∧
    (2 ≤ key.p.val → key.dmp1.val < key.p.val - 1 ∧
      key.dmp1.val ≡ key.d.val [MOD key.p.val - 1]) ∧
    (2 ≤ key.q.val → key.dmq1.val < key.q.val - 1 ∧
      key.dmq1.val ≡ key.d.val [MOD key.q.val - 1])

/-- A key pair is read from the bytes exactly when they are a type, six strings and a name, and it
holds them. -/
def ReadsKey (bs : Bytes) : Prop :=
  ((∃ keyPair rest, KeyPair.fromWire bs = .ok (keyPair, rest)) ↔
      ∃ s name rest, KeyMessage bs s name rest) ∧
    ∀ s name rest, KeyMessage bs s name rest →
      ∃ keyPair, KeyPair.fromWire bs = .ok (keyPair, rest) ∧ HoldsStrings keyPair s name

theorem readsKey_iff {bs : Bytes} :
    ReadsKey bs ↔ ∀ s name rest, KeyMessage bs s name rest → s.NumberFields := by
  constructor
  · rintro ⟨-, hreads⟩ s name rest h
    obtain ⟨keyPair, hkeyPair, -⟩ := hreads s name rest h
    obtain ⟨s', name', h', hs'⟩ := exists_keyMessage_of_fromWire hkeyPair
    rw [h.strings_unique h']
    exact hs'
  · intro hnumbers
    have hreads (s : RsaStrings) (name : String) (rest : Bytes) (h : KeyMessage bs s name rest) :
        ∃ keyPair, KeyPair.fromWire bs = .ok (keyPair, rest) ∧ HoldsStrings keyPair s name := by
      have hs := hnumbers s name rest h
      obtain ⟨f, hf⟩ := hs.exists_values
      obtain ⟨dp, dq, hread, hdp, hdq⟩ := h.exists_fromWire hs hf
      refine ⟨_, hread, _, rfl, rfl, rfl, hf, ?_, ?_⟩
      · intro h2
        exact BigNum.reduced_of_eq_mod h2 (hdp h2)
      · intro h2
        exact BigNum.reduced_of_eq_mod h2 (hdq h2)
    refine ⟨⟨?_, ?_⟩, hreads⟩
    · rintro ⟨keyPair, rest, hkeyPair⟩
      obtain ⟨s, name, h, -⟩ := exists_keyMessage_of_fromWire hkeyPair
      exact ⟨s, name, rest, h⟩
    · rintro ⟨s, name, rest, h⟩
      obtain ⟨keyPair, hkeyPair, -⟩ := hreads s name rest h
      exact ⟨keyPair, rest, hkeyPair⟩

/-- **Reading keys from requests.** A key pair is read exactly from the type, six complete strings
of which the fifth and the sixth do not denote `1`, and a complete string that is a name, unless one
of the six has more significant bytes than OpenSSL takes. It holds the six values and the name, and
for primes from `2` on the exponents are the remainders of `d`. So what a client sends for a key is
read back as that key. -/
theorem key_pair_fromWire_iff (bs : Bytes) :
    (ReadsKey bs ↔ ∀ s name rest, KeyMessage bs s name rest → s.NumberFields) ∧
    ∀ (key : Rsa) (name : String) (s : RsaStrings) (rest : Bytes), 2 ≤ key.p.val → 2 ≤ key.q.val →
      s.Encodes key → (utf8 name).length < 2 ^ 32 →
      KeyPair.fromWire (s.write ++ writeString (utf8 name) ++ rest) =
        .ok (KeyPair.new (.rsa { key with
          dmp1 := key.d.mod (key.p.val - 1)
          dmq1 := key.d.mod (key.q.val - 1) }) name, rest) := by
  refine ⟨readsKey_iff, ?_⟩
  intro key name s rest hp2 hq2 hkey hname
  have hs := hkey.numberFields
  have hvalues := hkey.values
  have h : KeyMessage (s.write ++ writeString (utf8 name) ++ rest) s name rest := by
    refine ⟨hs.short, hname, rfl, ?_, ?_⟩
    · rw [hvalues.p]
      exact Nat.ne_of_gt hp2
    · rw [hvalues.q]
      exact Nat.ne_of_gt hq2
  obtain ⟨dp, dq, hread, hdp, hdq⟩ := h.exists_fromWire hs hvalues
  rw [hread, hdp hp2, hdq hq2]
  rfl

/-- A complete request whose modulus has a byte too many is not read. -/
theorem oversized_modulus_is_not_read :
    ¬ ReadsKey ((RsaStrings.mk oversized [3] [7] [4] [11] [3]).write ++
      writeString (utf8 "a")) := by
  intro h
  have hlt : oversized.length < 2 ^ 32 := by
    rw [length_oversized]
    decide
  have hmessage : KeyMessage ((RsaStrings.mk oversized [3] [7] [4] [11] [3]).write ++
      writeString (utf8 "a")) ⟨oversized, [3], [7], [4], [11], [3]⟩ "a" [] := by
    refine ⟨⟨hlt, ?_, ?_, ?_, ?_, ?_⟩, ?_, (List.append_nil _).symm, ?_, ?_⟩
    all_goals decide
  exact not_numberField_oversized (readsKey_iff.1 h _ _ _ hmessage).n

end SshKeys
