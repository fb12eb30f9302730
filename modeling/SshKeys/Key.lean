import SshKeys.Wire

/-!
# Keys

Key pairs and their encodings, after `key/mod.rs`: the private key read from an `ADD_IDENTITY`
request, the public key written to a listing and read from a `SIGN_REQUEST`, and signing. OpenSSL is
a parameter (`Openssl`).

A key pair carries the fact that its public key is the public part of its private key. Reading a
private key panics exactly when a field is too large for OpenSSL or one of the two primes is `1`
(`PrivateKey.fromWire_eq_panic_iff`), reading a public key exactly when a field is too large
(`PublicKey.decode_eq_panic_iff`), and encoding a public key exactly when one of its numbers is zero
(`PublicKey.encode_eq_panic_iff`).
-/

set_option autoImplicit false

namespace SshKeys

open Lib

/-- The components of `Rsa<Private>`. -/
structure Rsa where
  n : BigNum
  e : BigNum
  d : BigNum
  p : BigNum
  q : BigNum
  dmp1 : BigNum
  dmq1 : BigNum
  iqmp : BigNum
  deriving DecidableEq

/-- `Rsa::from_private_components`, which stores any components unchanged. -/
def Rsa.fromPrivateComponents (n e d p q dmp1 dmq1 iqmp : BigNum) : Rsa :=
  { n, e, d, p, q, dmp1, dmq1, iqmp }

/-- The digests of the signature schemes. -/
inductive MessageDigest where
  | sha1
  | sha256
  | sha512
  deriving DecidableEq

/-- The functions of OpenSSL that act on whole keys. -/
structure Openssl where
  /-- `PKey::from_rsa` -/
  pkeyFromRsa : Rsa → Option Rsa
  /-- `Signer::new`; the signer is its `sign_oneshot_to_vec`. -/
  signerNew : MessageDigest → Rsa → Option (Bytes → Option Bytes)
  /-- `Rsa::private_key_to_pem` -/
  privateKeyToPem : Rsa → String
  /-- `Rsa::private_key_from_pem` -/
  privateKeyFromPem : String → Option Rsa

/-- The enumeration has the one variant that the source has. -/
inductive PrivateKey where
  | rsa (key : Rsa)
  deriving DecidableEq

/-- The numbers of a public key. -/
inductive PublicKey where
  | rsa (e n : BigNum)
  deriving DecidableEq

/-- `PrivateKey::public` -/
def PrivateKey.public : PrivateKey → PublicKey
  | .rsa key => .rsa key.e key.n

namespace PrivateKey

/-- The order of the fields on the wire is not the order of the constructor call. -/
def fromWire : Read PrivateKey := do
  let keyType ← readStringUtf8
  if keyType = "ssh-rsa" then
    let n ← readMpint
    let e ← readMpint
    let d ← readMpint
    -- the client sends `iqmp` before the primes
    let iqmp ← readMpint
    let p ← readMpint
    let q ← readMpint
    -- the exponents are computed before the name is read
    let dp ← Decoder.lift (BigNum.rem d (BigNum.sub p 1))
    let dq ← Decoder.lift (BigNum.rem d (BigNum.sub q 1))
    pure (.rsa (Rsa.fromPrivateComponents n e d p q dp dq iqmp))
  else
    Decoder.fail (.new ("unknown key type: " ++ keyType))

/-- The digest and the name of the signature scheme that the request's flags ask for. -/
def scheme (flags : Nat) : MessageDigest × String :=
  if flags &&& 0x4 > 0 then (.sha512, "rsa-sha2-512")
  else if flags &&& 0x2 > 0 then (.sha256, "rsa-sha2-256")
  else (.sha1, "ssh-rsa")

/-- `PrivateKey::sign`: the name of the scheme and the signature, each as a string. -/
def sign (ossl : Openssl) : PrivateKey → Bytes → Nat → Outcome Error Bytes
  | .rsa key, msg, flags => do
      let pkey ← .ofOption (.wrap "create pkey" (.crate "openssl")) (ossl.pkeyFromRsa key)
      let (digest, sigType) := scheme flags
      let signer ← .ofOption (.wrap "create signer" (.crate "openssl"))
        (ossl.signerNew digest pkey)
      let sig ← .ofOption (.crate "openssl") (signer msg)
      pure (writeString (utf8 sigType) ++ writeString sig)

end PrivateKey

namespace PublicKey

/-- `PublicKey::key_type` -/
def keyType : PublicKey → String
  | .rsa _ _ => "ssh-rsa"

/-- The blob of a public key. A number that is zero has no encoding. -/
def encode : PublicKey → Outcome Error Bytes
  | .rsa e n => do
      let eBytes ← writeMpint e
      let nBytes ← writeMpint n
      pure (writeString (utf8 "ssh-rsa") ++ eBytes ++ nBytes)

/-- Bytes after the two integers are ignored. -/
def decode (buf : Bytes) : Outcome Error PublicKey :=
  Decoder.eval (do
    let keyType ← readStringUtf8
    if keyType = "ssh-rsa" then
      let e ← readMpint
      let n ← readMpint
      pure (.rsa e n)
    else
      Decoder.fail (.new ("unknown key type: " ++ keyType)) : Read PublicKey) buf

/-- `PartialEq::eq`. -/
def eq : PublicKey → PublicKey → Bool
  | .rsa e n, .rsa e1 n1 => n == n1 && e == e1

/-- The source's comparison is equality of the two numbers. -/
@[simp] theorem eq_iff {k k' : PublicKey} : k.eq k' = true ↔ k = k' := by
  rcases k with ⟨e, n⟩
  rcases k' with ⟨e1, n1⟩
  simp only [eq, Bool.and_eq_true, beq_iff_eq, PublicKey.rsa.injEq]
  exact And.comm

/-- A key that can be encoded. -/
def Usable : PublicKey → Prop
  | .rsa e n => e ≠ 0 ∧ n ≠ 0

instance : DecidablePred Usable
  | .rsa e n => inferInstanceAs (Decidable (e ≠ 0 ∧ n ≠ 0))

end PublicKey

/-- A key pair. Both of the source's constructors take the public key from the private one. -/
structure KeyPair where
  privateKey : PrivateKey
  publicKey : PublicKey
  name : String
  publicKey_eq : publicKey = privateKey.public
  deriving DecidableEq

namespace KeyPair

/-- `KeyPair::new` -/
def new (privateKey : PrivateKey) (name : String) : KeyPair :=
  { privateKey, publicKey := privateKey.public, name, publicKey_eq := rfl }

/-- The private key and the name that follows it. The public key is made from the private one. -/
def fromWire : Read KeyPair := do
  let key ← PrivateKey.fromWire.mapErr (.wrap "read key")
  let name ← readStringUtf8
  pure { privateKey := key, publicKey := key.public, name, publicKey_eq := rfl }

end KeyPair

/-- A signature response is made when OpenSSL takes the key, the digest and the message. -/
theorem PrivateKey.sign_eq_ok_iff {ossl : Openssl} {key : Rsa} {msg out : Bytes} {flags : Nat} :
    (PrivateKey.rsa key).sign ossl msg flags = .ok out ↔
      ∃ pkey signer sig, ossl.pkeyFromRsa key = some pkey ∧
        ossl.signerNew (scheme flags).1 pkey = some signer ∧ signer msg = some sig ∧
        out = writeString (utf8 (scheme flags).2) ++ writeString sig := by
  simp only [PrivateKey.sign, Outcome.bind_eq_ok_iff, Outcome.ofOption_eq_ok_iff,
    Outcome.pure_eq, Outcome.ok.injEq]
  constructor
  · rintro ⟨pkey, hpkey, signer, hsigner, sig, hsig, h⟩
    exact ⟨pkey, signer, sig, hpkey, hsigner, hsig, h.symm⟩
  · rintro ⟨pkey, signer, sig, hpkey, hsigner, hsig, h⟩
    exact ⟨pkey, hpkey, signer, hsigner, sig, hsig, h.symm⟩

/-! ## The encoding of public keys -/

/-- A blob that holds the two strings. -/
def publicBlob (eField nField : Bytes) : Bytes :=
  writeString (utf8 "ssh-rsa") ++ writeString eField ++ writeString nField

theorem PublicKey.encode_eq_ok_iff {e n : BigNum} {blob : Bytes} :
    (PublicKey.rsa e n).encode = .ok blob ↔
      (e ≠ 0 ∧ n ≠ 0) ∧
        blob = publicBlob (TwosComplement.ofNat e.val) (TwosComplement.ofNat n.val) := by
  simp only [encode, Outcome.bind_eq_ok_iff, writeMpint_eq_ok_iff, Outcome.pure_eq,
    Outcome.ok.injEq]
  constructor
  · rintro ⟨_, ⟨he, rfl⟩, _, ⟨hn, rfl⟩, rfl⟩
    exact ⟨⟨he, hn⟩, rfl⟩
  · rintro ⟨⟨he, hn⟩, rfl⟩
    exact ⟨_, ⟨he, rfl⟩, _, ⟨hn, rfl⟩, rfl⟩

/-- **Accepted blobs.** A key is decoded exactly from a blob of two complete strings that OpenSSL
takes as numbers, whatever follows it, and is the two unsigned values. -/
theorem PublicKey.decode_eq_ok_iff {buf : Bytes} {e n : BigNum} :
    decode buf = .ok (.rsa e n) ↔
      ∃ eField nField rest, NumberField eField ∧ NumberField nField ∧
        buf = publicBlob eField nField ++ rest ∧
        BigEndian.ofBytes eField = e.val ∧ BigEndian.ofBytes nField = n.val := by
  rw [decode, Decoder.eval_eq_ok_iff]
  constructor
  · rintro ⟨rest, h⟩
    obtain ⟨keyType, mid, htype, hnumbers⟩ := Decoder.bind_eq_ok_iff.1 h
    obtain ⟨-, rfl⟩ := readString_eq_ok_iff.1 (readStringUtf8_eq_ok_iff.1 htype)
    by_cases hk : keyType = "ssh-rsa"
    · rw [if_pos hk] at hnumbers
      obtain ⟨e', mid', he, hnumber⟩ := Decoder.bind_eq_ok_iff.1 hnumbers
      obtain ⟨n', mid'', hn, hend⟩ := Decoder.bind_eq_ok_iff.1 hnumber
      obtain ⟨eField, heField, heNumber, heVal⟩ := readMpint_eq_ok_iff.1 he
      obtain ⟨nField, hnField, hnNumber, hnVal⟩ := readMpint_eq_ok_iff.1 hn
      obtain ⟨-, rfl⟩ := readString_eq_ok_iff.1 heField
      obtain ⟨-, rfl⟩ := readString_eq_ok_iff.1 hnField
      cases hend
      refine ⟨eField, nField, rest, heNumber, hnNumber, ?_, heVal, hnVal⟩
      rw [hk, publicBlob, List.append_assoc, List.append_assoc]
    · rw [if_neg hk] at hnumbers
      cases hnumbers
  · rintro ⟨eField, nField, rest, heNumber, hnNumber, rfl, heVal, hnVal⟩
    have htype : (utf8 "ssh-rsa").length < 2 ^ 32 := by decide
    refine ⟨rest, ?_⟩
    rw [publicBlob, List.append_assoc, List.append_assoc]
    -- the three strings one after the other
    refine Decoder.bind_eq_ok_iff.2 ⟨_, _, readStringUtf8_writeString htype _, ?_⟩
    rw [if_pos rfl]
    refine Decoder.bind_eq_ok_iff.2 ⟨_, _, readMpint_writeString heNumber heVal _, ?_⟩
    exact Decoder.bind_eq_ok_iff.2 ⟨_, _, readMpint_writeString hnNumber hnVal _, rfl⟩

/-- Shortest strings are decoded to the numbers they stand for. -/
theorem PublicKey.decode_publicBlob {e n : BigNum} {eField nField : Bytes}
    (he : TwosComplement.Canonical e.val eField) (hn : TwosComplement.Canonical n.val nField)
    (rest : Bytes) : decode (publicBlob eField nField ++ rest) = .ok (.rsa e n) :=
  decode_eq_ok_iff.2 ⟨eField, nField, rest, numberField_of_canonical he,
    numberField_of_canonical hn, rfl, ofBytes_of_canonical he, ofBytes_of_canonical hn⟩

/-- **Round trip.** What `encode` writes is decoded to the same key, whatever follows it. -/
theorem PublicKey.decode_encode {k : PublicKey} {blob : Bytes} (h : k.encode = .ok blob)
    (rest : Bytes) : PublicKey.decode (blob ++ rest) = .ok k := by
  rcases k with ⟨e, n⟩
  obtain ⟨-, rfl⟩ := PublicKey.encode_eq_ok_iff.1 h
  exact PublicKey.decode_publicBlob (TwosComplement.canonical_ofNat e.val)
    (TwosComplement.canonical_ofNat n.val) rest

/-- Keys with the same encoding are the same. -/
theorem PublicKey.encode_injective {k k' : PublicKey} {blob : Bytes} (h : k.encode = .ok blob)
    (h' : k'.encode = .ok blob) : k = k' := by
  have hk := PublicKey.decode_encode h []
  rw [PublicKey.decode_encode h' [], Outcome.ok.injEq] at hk
  exact hk.symm

/-! ## What panics -/

/-- The bytes begin with the key type and complete strings, at most `count` of them, of which one is
too large for OpenSSL. -/
def OversizedKey (count : Nat) (bs : Bytes) : Prop :=
  ∃ body, bs = writeString (utf8 "ssh-rsa") ++ body ∧ OversizedField count body

/-- A key of the known type is read by `m`. -/
theorem bind_keyType_eq_panic_iff {α : Type} {m : Read α} {bs : Bytes} :
    (readStringUtf8 >>= fun keyType =>
        if keyType = "ssh-rsa" then m
        else Decoder.fail (.new ("unknown key type: " ++ keyType))) bs = .panic ↔
      ∃ body, bs = writeString (utf8 "ssh-rsa") ++ body ∧ m body = .panic := by
  rw [Decoder.bind_eq_panic_iff]
  constructor
  · rintro (h | ⟨keyType, body, htype, h⟩)
    · exact absurd h (readStringUtf8_ne_panic bs)
    · by_cases hk : keyType = "ssh-rsa"
      · rw [if_pos hk] at h
        obtain ⟨-, rfl⟩ := readString_eq_ok_iff.1 (readStringUtf8_eq_ok_iff.1 htype)
        exact ⟨body, by rw [hk], h⟩
      · rw [if_neg hk] at h
        cases h
  · rintro ⟨body, rfl, h⟩
    have htype : (utf8 "ssh-rsa").length < 2 ^ 32 := by decide
    refine Or.inr ⟨_, body, readStringUtf8_writeString htype body, ?_⟩
    rw [if_pos rfl]
    exact h

theorem pure_eq_panic_iff {α : Type} {a : α} {bs : Bytes} :
    (pure a : Read α) bs = .panic ↔ OversizedField 0 bs :=
  iff_of_false nofun (not_oversizedField_zero bs)

/-- The numbers of an `ADD_IDENTITY` request in the order of the wire. -/
structure RsaFields where
  n : BigNum
  e : BigNum
  d : BigNum
  iqmp : BigNum
  p : BigNum
  q : BigNum
  deriving DecidableEq

namespace RsaFields

/-- The type and the six numbers that `PrivateKey.fromWire` reads before it computes. -/
def read : Read RsaFields := do
  let keyType ← readStringUtf8
  if keyType = "ssh-rsa" then
    let n ← readMpint
    let e ← readMpint
    let d ← readMpint
    let iqmp ← readMpint
    let p ← readMpint
    let q ← readMpint
    pure { n, e, d, iqmp, p, q }
  else
    Decoder.fail (.new ("unknown key type: " ++ keyType))

/-- The key that `PrivateKey.fromWire` computes from the numbers. -/
def toKey (f : RsaFields) : Outcome Error PrivateKey := do
  let dp ← BigNum.rem f.d (BigNum.sub f.p 1)
  let dq ← BigNum.rem f.d (BigNum.sub f.q 1)
  pure (.rsa (Rsa.fromPrivateComponents f.n f.e f.d f.p f.q dp dq f.iqmp))

/-- One of the divisors `p - 1` and `q - 1` is zero. -/
def ZeroDivisor (f : RsaFields) : Prop := f.p = 1 ∨ f.q = 1

instance : DecidablePred ZeroDivisor := fun f => inferInstanceAs (Decidable (f.p = 1 ∨ f.q = 1))

theorem read_eq_panic_iff {bs : Bytes} : read bs = .panic ↔ OversizedKey 6 bs := by
  rw [read, bind_keyType_eq_panic_iff, OversizedKey]
  refine exists_congr fun body => and_congr_right fun _ => ?_
  -- the six numbers one after the other
  refine bind_readMpint_eq_panic_iff fun n _ => ?_
  refine bind_readMpint_eq_panic_iff fun e _ => ?_
  refine bind_readMpint_eq_panic_iff fun d _ => ?_
  refine bind_readMpint_eq_panic_iff fun iqmp _ => ?_
  refine bind_readMpint_eq_panic_iff fun p _ => ?_
  refine bind_readMpint_eq_panic_iff fun q _ => ?_
  exact pure_eq_panic_iff

theorem toKey_eq_panic_iff {f : RsaFields} : f.toKey = .panic ↔ f.ZeroDivisor := by
  have hp : BigNum.rem f.d (BigNum.sub f.p 1) = .panic ↔ f.p = 1 := by
    rw [BigNum.rem_eq_panic_iff, BigNum.sub_one_eq_zero_iff]
  have hq : BigNum.rem f.d (BigNum.sub f.q 1) = .panic ↔ f.q = 1 := by
    rw [BigNum.rem_eq_panic_iff, BigNum.sub_one_eq_zero_iff]
  -- the second division is reached only if the first one returns
  rw [toKey, Outcome.bind_eq_panic_iff, hp, ZeroDivisor]
  constructor
  · rintro (h | ⟨dp, -, h⟩)
    · exact Or.inl h
    · rw [Outcome.bind_eq_panic_iff, hq] at h
      simpa using Or.inr h
  · rintro (h | h)
    · exact Or.inl h
    · by_cases h1 : f.p = 1
      · exact Or.inl h1
      · have hne : BigNum.sub f.p 1 ≠ 0 := fun h0 => h1 (BigNum.sub_one_eq_zero_iff.1 h0)
        obtain ⟨dp, hdp, -⟩ := BigNum.exists_rem_of_ne_zero f.d hne
        refine Or.inr ⟨dp, hdp, ?_⟩
        rw [Outcome.bind_eq_panic_iff, hq]
        exact Or.inl h

end RsaFields

/-- Reading a private key is reading its numbers and computing with them. -/
theorem PrivateKey.fromWire_eq :
    PrivateKey.fromWire = RsaFields.read >>= fun f => Decoder.lift f.toKey := by
  rw [PrivateKey.fromWire, RsaFields.read, Decoder.bind_assoc]
  congr 1
  funext keyType
  by_cases hk : keyType = "ssh-rsa"
  · simp only [hk, if_true, Decoder.bind_assoc, Decoder.pure_bind, RsaFields.toKey,
      Decoder.lift_bind, Outcome.pure_eq, Decoder.lift_ok]
  · simp only [hk, if_false, Decoder.fail_bind]

/-- **Reading a private key panics** exactly when one of its six numbers is there and too large, or
all are there and one of the two primes is `1`. -/
theorem PrivateKey.fromWire_eq_panic_iff {bs : Bytes} :
    PrivateKey.fromWire bs = .panic ↔
      OversizedKey 6 bs ∨ ∃ f rest, RsaFields.read bs = .ok (f, rest) ∧ f.ZeroDivisor := by
  rw [PrivateKey.fromWire_eq, Decoder.bind_eq_panic_iff, RsaFields.read_eq_panic_iff]
  simp only [Decoder.lift_eq_panic_iff, RsaFields.toKey_eq_panic_iff]

theorem KeyPair.fromWire_eq_panic_iff {bs : Bytes} :
    KeyPair.fromWire bs = .panic ↔
      OversizedKey 6 bs ∨ ∃ f rest, RsaFields.read bs = .ok (f, rest) ∧ f.ZeroDivisor := by
  rw [KeyPair.fromWire, Decoder.bind_eq_panic_iff, ← PrivateKey.fromWire_eq_panic_iff]
  simp [Decoder.bind_eq_panic_iff, readStringUtf8_ne_panic]

/-- **Decoding a public key panics** exactly when one of its two numbers is there and too large. -/
theorem PublicKey.decode_eq_panic_iff {buf : Bytes} :
    PublicKey.decode buf = .panic ↔ OversizedKey 2 buf := by
  rw [PublicKey.decode, Decoder.eval_eq_panic_iff, bind_keyType_eq_panic_iff, OversizedKey]
  refine exists_congr fun body => and_congr_right fun _ => ?_
  refine bind_readMpint_eq_panic_iff fun e _ => ?_
  refine bind_readMpint_eq_panic_iff fun n _ => ?_
  exact pure_eq_panic_iff

theorem PublicKey.exists_encode_eq_ok {k : PublicKey} (h : k.Usable) :
    ∃ blob, k.encode = .ok blob := by
  rcases k with ⟨e, n⟩
  exact ⟨_, PublicKey.encode_eq_ok_iff.2 ⟨h, rfl⟩⟩

/-- **Encoding a public key panics** exactly when one of its numbers is zero. -/
theorem PublicKey.encode_eq_panic_iff {k : PublicKey} : k.encode = .panic ↔ ¬ k.Usable := by
  constructor
  · intro h hu
    obtain ⟨blob, hblob⟩ := PublicKey.exists_encode_eq_ok hu
    rw [hblob] at h
    cases h
  · rcases k with ⟨e, n⟩
    intro hu
    rw [PublicKey.encode, Outcome.bind_eq_panic_iff, writeMpint_eq_panic_iff]
    -- `e` is written first, so a zero `n` counts only behind a writable `e`
    by_cases he : e = 0
    · exact Or.inl he
    · obtain ⟨eBytes, heBytes⟩ := exists_writeMpint_eq_ok he
      have hn : n = 0 := by
        by_contra hn
        exact hu ⟨he, hn⟩
      refine Or.inr ⟨eBytes, heBytes, ?_⟩
      rw [Outcome.bind_eq_panic_iff]
      exact Or.inl (writeMpint_eq_panic_iff.2 hn)

theorem PrivateKey.sign_ne_panic (ossl : Openssl) (k : PrivateKey) (msg : Bytes) (flags : Nat) :
    k.sign ossl msg flags ≠ .panic := by
  rcases k with ⟨key⟩
  rw [PrivateKey.sign]
  simp [Outcome.bind_eq_panic_iff, Outcome.ofOption_ne_panic]

end SshKeys
