import SshKeys.Store
import Mathlib.Data.Nat.Bitwise

/-!
# The grammar of replies

The replies of the agent protocol, how they are written, and how a client reads them: a type, its
fields, and no byte after them (`Reply.parse`). A reply is read back exactly when its lengths and
its number of keys fit their prefixes (`Reply.parse_write_iff`).

`reply_grammar` says that whatever the agent answers is a reply of this grammar and fits the
request: a listing shows the stored keys, a signature response carries a signature by the algorithm
that the flags ask for.
-/

set_option autoImplicit false

namespace SshKeys

open Lib

/-- What a reply says. -/
inductive Reply where
  | failure
  | success
  /-- The keys of a listing, each an encoded public key and a name. -/
  | identities (entries : List (Bytes × Bytes))
  | signResponse (algorithm signature : Bytes)
  deriving DecidableEq

/-- A key of a listing. -/
def writeEntry (entry : Bytes × Bytes) : Bytes := writeString entry.1 ++ writeString entry.2

/-- A key of a listing at the front of the bytes. -/
def readEntry : Read (Bytes × Bytes) := do
  let blob ← readString
  let name ← readString
  pure (blob, name)

namespace Reply

/-- The bytes of a reply: its type, and its fields. -/
def write : Reply → Bytes
  | .failure => [sshAgentFailure]
  | .success => [sshAgentSuccess]
  | .identities entries =>
      sshAgentIdentitiesAnswer :: (writeU32 (entries.length % 2 ^ 32) ++ entries.flatMap writeEntry)
  | .signResponse algorithm signature =>
      sshAgentSignResponse :: writeString (writeEntry (algorithm, signature))

/-- The reply at the front of the bytes. The string of a signature response is read to its end. -/
def read : Read Reply := do
  let msgType ← readU8
  if msgType = sshAgentFailure then pure .failure
  else if msgType = sshAgentSuccess then pure .success
  else if msgType = sshAgentIdentitiesAnswer then do
    let n ← readU32
    let entries ← readEntry.many n
    pure (.identities entries)
  else if msgType = sshAgentSignResponse then do
    let content ← readString
    let (algorithm, signature) ← Decoder.lift (readEntry.whole (.new "bytes left over") content)
    pure (.signResponse algorithm signature)
  else
    Decoder.fail (.new "unknown message type")

/-- The reply that all of the bytes are. -/
def parse (resp : Bytes) : Outcome Error Reply := read.whole (.new "bytes left over") resp

/-- The number of keys and every length fit in 32 bits. -/
def Short : Reply → Prop
  | .failure => True
  | .success => True
  | .identities entries => entries.length < 2 ^ 32 ∧
      ∀ entry ∈ entries, entry.1.length < 2 ^ 32 ∧ entry.2.length < 2 ^ 32
  | .signResponse algorithm signature => algorithm.length < 2 ^ 32 ∧ signature.length < 2 ^ 32 ∧
      (writeEntry (algorithm, signature)).length < 2 ^ 32

instance : DecidablePred Short
  | .failure => inferInstanceAs (Decidable True)
  | .success => inferInstanceAs (Decidable True)
  | .identities entries => inferInstanceAs (Decidable (entries.length < 2 ^ 32 ∧
      ∀ entry ∈ entries, entry.1.length < 2 ^ 32 ∧ entry.2.length < 2 ^ 32))
  | .signResponse algorithm signature => inferInstanceAs (Decidable (algorithm.length < 2 ^ 32 ∧
      signature.length < 2 ^ 32 ∧ (writeEntry (algorithm, signature)).length < 2 ^ 32))

/-- The first byte of a reply. -/
def msgType : Reply → UInt8
  | .failure => sshAgentFailure
  | .success => sshAgentSuccess
  | .identities _ => sshAgentIdentitiesAnswer
  | .signResponse _ _ => sshAgentSignResponse

@[simp] theorem head?_write (reply : Reply) : reply.write.head? = some reply.msgType := by
  cases reply <;> rfl

end Reply

/-! ## Reading replies back -/

theorem readEntry_eq_ok_iff {bs rest : Bytes} {entry : Bytes × Bytes} :
    readEntry bs = .ok (entry, rest) ↔
      (entry.1.length < 2 ^ 32 ∧ entry.2.length < 2 ^ 32) ∧ bs = writeEntry entry ++ rest := by
  rcases entry with ⟨blob, name⟩
  rw [readEntry, Decoder.bind_eq_ok_iff]
  constructor
  · rintro ⟨blob', mid, hblob, h⟩
    obtain ⟨name', rest', hname, h⟩ := Decoder.bind_eq_ok_iff.1 h
    rw [Decoder.pure_apply, Outcome.ok.injEq, Prod.mk.injEq, Prod.mk.injEq] at h
    obtain ⟨⟨rfl, rfl⟩, rfl⟩ := h
    obtain ⟨hblobLt, rfl⟩ := readString_eq_ok_iff.1 hblob
    obtain ⟨hnameLt, rfl⟩ := readString_eq_ok_iff.1 hname
    exact ⟨⟨hblobLt, hnameLt⟩, (List.append_assoc _ _ _).symm⟩
  · rintro ⟨⟨hblobLt, hnameLt⟩, rfl⟩
    rw [writeEntry, List.append_assoc]
    refine ⟨blob, _, readString_writeString hblobLt _, ?_⟩
    exact Decoder.bind_eq_ok_iff.2 ⟨name, rest, readString_writeString hnameLt _, rfl⟩

theorem whole_readEntry_eq_ok_iff {e : Error} {content : Bytes} {entry : Bytes × Bytes} :
    readEntry.whole e content = .ok entry ↔
      (entry.1.length < 2 ^ 32 ∧ entry.2.length < 2 ^ 32) ∧ content = writeEntry entry := by
  rw [Decoder.whole_eq_ok_iff, readEntry_eq_ok_iff, List.append_nil]

namespace Reply

/-- A client accepts nothing but the writings of short replies, -/
theorem eq_write_of_parse {resp : Bytes} {reply : Reply} (h : parse resp = .ok reply) :
    reply.Short ∧ resp = reply.write := by
  rw [parse, Decoder.whole_eq_ok_iff, read, Decoder.bind_eq_ok_iff] at h
  obtain ⟨msgType, body, hu8, h⟩ := h
  obtain rfl : resp = msgType :: body := by
    cases resp with
    | nil => simp [readU8] at hu8
    | cons b bs =>
        rw [readU8, Outcome.ok.injEq, Prod.mk.injEq] at hu8
        rw [hu8.1, hu8.2]
  -- one case for each type that a client knows
  by_cases hfailure : msgType = sshAgentFailure
  · rw [if_pos hfailure, Decoder.pure_apply, Outcome.ok.injEq, Prod.mk.injEq] at h
    obtain ⟨rfl, rfl⟩ := h
    exact ⟨trivial, by rw [hfailure]; rfl⟩
  rw [if_neg hfailure] at h
  by_cases hsuccess : msgType = sshAgentSuccess
  · rw [if_pos hsuccess, Decoder.pure_apply, Outcome.ok.injEq, Prod.mk.injEq] at h
    obtain ⟨rfl, rfl⟩ := h
    exact ⟨trivial, by rw [hsuccess]; rfl⟩
  rw [if_neg hsuccess] at h
  by_cases hidentities : msgType = sshAgentIdentitiesAnswer
  · rw [if_pos hidentities] at h
    obtain ⟨n, mid, hn, h⟩ := Decoder.bind_eq_ok_iff.1 h
    obtain ⟨entries, mid', hentries, h⟩ := Decoder.bind_eq_ok_iff.1 h
    rw [Decoder.pure_apply, Outcome.ok.injEq, Prod.mk.injEq] at h
    obtain ⟨rfl, rfl⟩ := h
    obtain ⟨hlt, rfl⟩ := readU32_eq_ok_iff.1 hn
    obtain ⟨rfl, hshort, rfl⟩ :=
      (Decoder.many_eq_ok_iff fun s entry rest => readEntry_eq_ok_iff).1 hentries
    refine ⟨⟨hlt, hshort⟩, ?_⟩
    rw [hidentities, write, Nat.mod_eq_of_lt hlt, List.append_nil]
  rw [if_neg hidentities] at h
  by_cases hsign : msgType = sshAgentSignResponse
  · rw [if_pos hsign] at h
    obtain ⟨content, mid, hcontent, h⟩ := Decoder.bind_eq_ok_iff.1 h
    obtain ⟨⟨algorithm, signature⟩, mid', hlift, h⟩ := Decoder.bind_eq_ok_iff.1 h
    simp only [Decoder.pure_apply, Outcome.ok.injEq, Prod.mk.injEq] at h
    obtain ⟨rfl, rfl⟩ := h
    obtain ⟨hentry, rfl⟩ := Decoder.lift_eq_ok_iff.1 hlift
    obtain ⟨hlt, rfl⟩ := readString_eq_ok_iff.1 hcontent
    obtain ⟨⟨halgorithm, hsignature⟩, rfl⟩ := whole_readEntry_eq_ok_iff.1 hentry
    refine ⟨⟨halgorithm, hsignature, hlt⟩, ?_⟩
    rw [hsign, write, List.append_nil]
  · rw [if_neg hsign] at h
    simp at h

/-- and it accepts all of them. -/
theorem parse_write {reply : Reply} (hshort : reply.Short) : parse reply.write = .ok reply := by
  rw [parse, Decoder.whole_eq_ok_iff, read, Decoder.bind_eq_ok_iff]
  cases reply with
  | failure => exact ⟨sshAgentFailure, [], rfl, rfl⟩
  | success => exact ⟨sshAgentSuccess, [], rfl, rfl⟩
  | identities entries =>
      obtain ⟨hlt, hentries⟩ := hshort
      refine ⟨sshAgentIdentitiesAnswer, _, rfl, ?_⟩
      have hmany : readEntry.many entries.length (entries.flatMap writeEntry) =
          .ok (entries, []) :=
        (Decoder.many_eq_ok_iff fun s entry rest => readEntry_eq_ok_iff).2
          ⟨rfl, hentries, (List.append_nil _).symm⟩
      rw [if_neg (by decide), if_neg (by decide), if_pos rfl, Nat.mod_eq_of_lt hlt]
      refine Decoder.bind_eq_ok_iff.2 ⟨_, _, readU32_writeU32 hlt _, ?_⟩
      exact Decoder.bind_eq_ok_iff.2 ⟨entries, [], hmany, rfl⟩
  | signResponse algorithm signature =>
      obtain ⟨halgorithm, hsignature, hlt⟩ := hshort
      refine ⟨sshAgentSignResponse, _, rfl, ?_⟩
      have hentry : readEntry.whole (.new "bytes left over")
          (writeEntry (algorithm, signature)) = .ok (algorithm, signature) :=
        whole_readEntry_eq_ok_iff.2 ⟨⟨halgorithm, hsignature⟩, rfl⟩
      have hcontent : readString (writeString (writeEntry (algorithm, signature))) =
          .ok (writeEntry (algorithm, signature), []) := by
        have h := readString_writeString hlt []
        rwa [List.append_nil] at h
      rw [if_neg (by decide), if_neg (by decide), if_neg (by decide), if_pos rfl]
      refine Decoder.bind_eq_ok_iff.2 ⟨_, _, hcontent, ?_⟩
      refine Decoder.bind_eq_ok_iff.2 ⟨(algorithm, signature), [], ?_, rfl⟩
      exact Decoder.lift_eq_ok_iff.2 ⟨hentry, rfl⟩

/-- **Round trip.** A reply is read back exactly when its lengths and its number of keys fit. -/
theorem parse_write_iff {reply : Reply} : parse reply.write = .ok reply ↔ reply.Short :=
  ⟨fun h => (eq_write_of_parse h).1, parse_write⟩

end Reply

/-! ## What the agent answers -/

/-- The signature algorithm that the flags of a request ask for. -/
def algorithmFor (flags : Nat) : String :=
  if flags.testBit 2 then "rsa-sha2-512"
  else if flags.testBit 1 then "rsa-sha2-256"
  else "ssh-rsa"

/-- The digest of a signature algorithm. -/
def digestOf (algorithm : String) : Option MessageDigest :=
  if algorithm = "rsa-sha2-512" then some .sha512
  else if algorithm = "rsa-sha2-256" then some .sha256
  else if algorithm = "ssh-rsa" then some .sha1
  else none

/-- The listing shows the keys in their order, each with its encoding and its name. -/
def Listed (keys : List KeyPair) (entries : List (Bytes × Bytes)) : Prop :=
  List.Forall₂ (fun keyPair entry => keyPair.publicKey.encode = .ok entry.1 ∧
    entry.2 = utf8 keyPair.name) keys entries

/-- The reply fits the request: a listing answers a listing, a success an addition, and a signature
response a request for this signature. -/
inductive Answers (crates : Crates) (w : World) (buf : Bytes) : Reply → Prop where
  | failure : Answers crates w buf .failure
  | success : buf.head? = some sshAgentcAddIdentity → Answers crates w buf .success
  | identities {entries : List (Bytes × Bytes)} :
      buf.head? = some sshAgentcRequestIdentities → Listed w.config.keys entries →
      Answers crates w buf (.identities entries)
  | signResponse {publicKey : PublicKey} {msg : Bytes} {flags idx : Nat} {keyPair : KeyPair}
      {key pkey : Rsa} {digest : MessageDigest} {signer : Bytes → Option Bytes}
      {signature : Bytes} :
      buf.head? = some sshAgentcSignRequest → SignRequestFor buf publicKey msg flags →
      Agent.getKey w.config publicKey = some (keyPair, idx) → keyPair.privateKey = .rsa key →
      crates.pkeyFromRsa key = some pkey → digestOf (algorithmFor flags) = some digest →
      crates.signerNew digest pkey = some signer → signer msg = some signature →
      Answers crates w buf (.signResponse (utf8 (algorithmFor flags)) signature)

/-- The algorithm that the source names is the one that the flags ask for, and so is its digest. -/
theorem scheme_eq (flags : Nat) :
    (PrivateKey.scheme flags).2 = algorithmFor flags ∧
      digestOf (algorithmFor flags) = some (PrivateKey.scheme flags).1 := by
  have hbit (i : Nat) : flags &&& 2 ^ i > 0 ↔ flags.testBit i = true := by
    rw [Nat.and_comm, Nat.two_pow_and]
    cases flags.testBit i <;> simp
  have h512 : flags &&& 0x4 > 0 ↔ flags.testBit 2 = true := hbit 2
  have h256 : flags &&& 0x2 > 0 ↔ flags.testBit 1 = true := hbit 1
  rw [PrivateKey.scheme, algorithmFor]
  simp only [h512, h256]
  by_cases h2 : flags.testBit 2 = true
  · simp [h2, digestOf]
  · by_cases h1 : flags.testBit 1 = true
    · simp [h2, h1, digestOf]
    · simp [h2, h1, digestOf]

theorem writeIdentities_eq_ok {keys : List KeyPair} {out : Bytes}
    (h : Agent.writeIdentities keys = .ok out) :
    ∃ entries, Listed keys entries ∧ out = entries.flatMap writeEntry := by
  induction keys generalizing out with
  | nil =>
      rw [Agent.writeIdentities, Outcome.pure_eq, Outcome.ok.injEq] at h
      exact ⟨[], List.Forall₂.nil, h.symm⟩
  | cons keyPair keys ih =>
      rw [Agent.writeIdentities, Outcome.bind_eq_ok_iff] at h
      obtain ⟨blob, hblob, h⟩ := h
      obtain ⟨rest, hrest, h⟩ := Outcome.bind_eq_ok_iff.1 h
      rw [Outcome.pure_eq, Outcome.ok.injEq] at h
      obtain ⟨entries, hlisted, rfl⟩ := ih hrest
      refine ⟨(blob, utf8 keyPair.name) :: entries, List.Forall₂.cons ⟨hblob, rfl⟩ hlisted, ?_⟩
      rw [← h, List.flatMap_cons, writeEntry]

/-- A listing is the writing of its reply. -/
theorem identitiesAnswer_eq_ok {keys : List KeyPair} {resp : Bytes}
    (h : identitiesAnswer keys = .ok resp) :
    ∃ entries, Listed keys entries ∧ resp = (Reply.identities entries).write := by
  rw [identitiesAnswer, Outcome.bind_eq_ok_iff] at h
  obtain ⟨out, hout, h⟩ := h
  rw [Outcome.pure_eq, Outcome.ok.injEq] at h
  obtain ⟨entries, hlisted, rfl⟩ := writeIdentities_eq_ok hout
  refine ⟨entries, hlisted, ?_⟩
  rw [← h, Reply.write, List.Forall₂.length_eq hlisted]

section Perform

variable {crates : Crates} {info : RequestInfo} {w : World} {buf : Bytes}

/-- The reply to a request for a signature. -/
theorem answers_signing {publicKey : PublicKey} {msg resp : Bytes} {flags : Nat}
    {r : Ran World Event Error Bytes} (hrequest : SignRequestFor buf publicKey msg flags)
    (hhead : buf.head? = some sshAgentcSignRequest)
    (hsigning : Signing crates info w publicKey msg flags r) (h : r.outcome = .ok resp) :
    ∃ reply, Answers crates w buf reply ∧ resp = reply.write := by
  cases hsigning with
  | unknown hget => exact ⟨.failure, .failure, (Outcome.ok.inj h).symm⟩
  | refused hget hyes => exact ⟨.failure, .failure, (Outcome.ok.inj h).symm⟩
  | failed hget hyes hsign => exact ⟨.failure, .failure, (Outcome.ok.inj h).symm⟩
  | @signed keyPair idx sig hget hyes hsign =>
      rcases hkey : keyPair.privateKey with ⟨key⟩
      have hok : (PrivateKey.rsa key).sign crates.toOpenssl msg flags = .ok sig := by
        rw [hkey] at hsign
        cases hout : (PrivateKey.rsa key).sign crates.toOpenssl msg flags with
        | ok out =>
            rw [hout] at hsign
            rw [Option.some.inj hsign]
        | err e => simp [hout, Outcome.toOption] at hsign
        | panic => simp [hout, Outcome.toOption] at hsign
      obtain ⟨pkey, signer, signature, hpkey, hsigner, hsignature, hsig⟩ :=
        PrivateKey.sign_eq_ok_iff.1 hok
      obtain ⟨halgorithm, hdigest⟩ := scheme_eq flags
      refine ⟨_, .signResponse hhead hrequest hget hkey hpkey hdigest hsigner hsignature, ?_⟩
      rw [← Outcome.ok.inj h, hsig, halgorithm]
      rfl

/-- The reply to any request. -/
theorem exists_answers_of_handled {resp : Bytes}
    (h : (handled crates info w buf).outcome = .ok resp) :
    ∃ reply, Answers crates w buf reply ∧ resp = reply.write := by
  rw [handled] at h
  cases hparse : Command.parse buf with
  | err e =>
      rw [hparse] at h
      exact ⟨.failure, .failure, (Outcome.ok.inj h).symm⟩
  | panic =>
      rw [hparse] at h
      cases h
  | ok command =>
      rw [hparse] at h
      have hhead := head?_of_parse hparse
      cases command with
      | requestIdentities =>
          obtain ⟨entries, hlisted, rfl⟩ := identitiesAnswer_eq_ok h
          exact ⟨_, .identities hhead hlisted, rfl⟩
      | addIdentity keyPair =>
          have hadding := adding_perform crates info w keyPair
          simp only at h
          generalize perform crates info w (.addIdentity keyPair) = r at h hadding
          cases hadding with
          | present hmem => exact ⟨.success, .success hhead, (Outcome.ok.inj h).symm⟩
          | saved hnew hsave => exact ⟨.success, .success hhead, (Outcome.ok.inj h).symm⟩
          | unsaved hnew hsave => exact ⟨.failure, .failure, (Outcome.ok.inj h).symm⟩
      | signRequest publicKey msg flags =>
          exact answers_signing (signRequestFor_of_parse hparse) hhead
            (signing_perform crates info w publicKey msg flags) h

end Perform

/-- **Reply grammar.** Whatever the agent answers is the whole writing of one reply that fits the
request, and a client reads exactly this reply back when its lengths and its number of keys fit in
32 bits. -/
theorem reply_grammar (crates : Crates) (w : World) (buf : Bytes) (info : RequestInfo)
    (resp : Bytes) (h : (Agent.handleRequest crates buf info w).outcome = .ok resp) :
    ∃ reply, Answers crates w buf reply ∧ resp = reply.write ∧
      (reply.Short → Reply.parse resp = .ok reply) := by
  rw [outcome_handleRequest] at h
  obtain ⟨reply, hanswers, rfl⟩ := exists_answers_of_handled h
  exact ⟨reply, hanswers, rfl, Reply.parse_write⟩

/-- A signature of the message `2` with the flags `4`. -/
theorem reply_grammar_small :
    ∃ reply, Answers Reference.crates (holding [smallPair smallKey "a"])
        (signRequestMessage smallBlob [2] 4) reply ∧
      sshAgentSignResponse :: writeString (writeEntry (utf8 "rsa-sha2-512", [29])) = reply.write ∧
      (reply.Short → Reply.parse (sshAgentSignResponse ::
        writeString (writeEntry (utf8 "rsa-sha2-512", [29]))) = .ok reply) :=
  reply_grammar Reference.crates _ _ ⟨"Pipe", none⟩ _ (by decide +kernel)

end SshKeys
