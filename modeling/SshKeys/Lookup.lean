import SshKeys.Reply

/-!
# Which key a signature request finds

The key pair that answers for a public key is the first of the list that has it, and a list only
grows at its end, so the pair in charge of a public key stays in charge over any run of requests
(`getKey_run`). Two results follow. What a listing shows can be signed with, in every later state
(`listed_keys_are_asked_for`). And an addition puts its key pair in charge of its public key exactly
when no stored pair was in charge of it before (`added_key_signs`).
-/

set_option autoImplicit false

namespace SshKeys

open Lib Lib.FirstWins

/-! ## The pair in charge -/

/-- A list that grows at its end keeps its pairs in charge. -/
theorem getKey_append {keys : List KeyPair} {k : PublicKey} {keyPair : KeyPair} {idx : Nat}
    (h : Agent.getKey { keys } k = some (keyPair, idx)) (more : List KeyPair) :
    Agent.getKey { keys := keys ++ more } k = some (keyPair, idx) := by
  obtain ⟨pre, post, hkeys, hidx, hkey, hpre⟩ := Agent.getKey_eq_some_iff.1 h
  refine Agent.getKey_eq_some_iff.2 ⟨pre, post ++ more, ?_, hidx, hkey, hpre⟩
  rw [show keys = pre ++ keyPair :: post from hkeys, List.append_assoc, List.cons_append]

/-- Over a run the list grows at its end. -/
theorem exists_run_keys_eq_append {crates : Crates} {calls : List Call} {w w' : World}
    (h : (agentMachine crates).run w calls = some w') :
    ∃ more, w'.config.keys = w.config.keys ++ more := by
  rw [run_config_keys_foldl h, foldl_insertNew]
  exact ⟨_, rfl⟩

theorem getKey_run {crates : Crates} {calls : List Call} {w w' : World} {k : PublicKey}
    {keyPair : KeyPair} {idx : Nat} (h : (agentMachine crates).run w calls = some w')
    (hget : Agent.getKey w.config k = some (keyPair, idx)) :
    Agent.getKey w'.config k = some (keyPair, idx) := by
  obtain ⟨more, hmore⟩ := exists_run_keys_eq_append h
  have happend := getKey_append hget more
  rwa [← hmore] at happend

/-! ## The dialog for a signature request -/

/-- A request for a signature with a stored key asks for the pair in charge, and signs with it after
a yes. -/
theorem handleRequest_events_of_getKey (crates : Crates) (info : RequestInfo) {w : World}
    {buf msg : Bytes} {publicKey : PublicKey} {flags idx : Nat} {keyPair : KeyPair}
    (hrequest : SignRequestFor buf publicKey msg flags)
    (hget : Agent.getKey w.config publicKey = some (keyPair, idx)) :
    (Agent.handleRequest crates buf info w).events =
      .request w.config.keys buf info :: .confirm keyPair info w.confirms.head ::
        (if w.confirms.head then [.sign keyPair.privateKey msg flags
          (keyPair.privateKey.sign crates.toOpenssl msg flags).toOption] else []) := by
  have hhandled : handled crates info w buf =
      perform crates info w (.signRequest publicKey msg flags) := by
    rw [handled, parse_eq_signRequest_iff.2 hrequest]
  rw [Agent.handleRequest_eq, hhandled]
  have hsigning := signing_perform crates info w publicKey msg flags
  generalize perform crates info w (.signRequest publicKey msg flags) = r at hsigning ⊢
  cases hsigning with
  | unknown hnone =>
      rw [hget] at hnone
      cases hnone
  | refused hsome hyes =>
      rw [hget, Option.some.injEq, Prod.mk.injEq] at hsome
      obtain ⟨rfl, rfl⟩ := hsome
      simp [Effect.after, hyes]
  | failed hsome hyes hsign =>
      rw [hget, Option.some.injEq, Prod.mk.injEq] at hsome
      obtain ⟨rfl, rfl⟩ := hsome
      simp [Effect.after, hyes, hsign]
  | signed hsome hyes hsign =>
      rw [hget, Option.some.injEq, Prod.mk.injEq] at hsome
      obtain ⟨rfl, rfl⟩ := hsome
      simp [Effect.after, hyes, hsign]

/-- A dialog is shown only for a request for a signature with a stored key. -/
theorem signRequestFor_of_confirm {crates : Crates} {info info' : RequestInfo} {w : World}
    {buf : Bytes} {keyPair : KeyPair} {answer : Bool}
    (h : .confirm keyPair info' answer ∈ (Agent.handleRequest crates buf info w).events) :
    ∃ msg flags idx, SignRequestFor buf keyPair.publicKey msg flags ∧
      Agent.getKey w.config keyPair.publicKey = some (keyPair, idx) := by
  rw [Agent.handleRequest_eq] at h
  have hevents : .confirm keyPair info' answer ∈ (handled crates info w buf).events := by
    simpa [Effect.after] using h
  rw [handled] at hevents
  cases hparse : Command.parse buf with
  | err e => simp [hparse] at hevents
  | panic => simp [hparse] at hevents
  | ok command =>
      rw [hparse] at hevents
      cases command with
      | requestIdentities => simp [perform] at hevents
      | addIdentity added =>
          have hadding := adding_perform crates info w added
          simp only at hevents
          generalize perform crates info w (.addIdentity added) = r at hadding hevents
          cases hadding with
          | present hmem => simp at hevents
          | saved hnew hsave => simp at hevents
          | unsaved hnew hsave => simp at hevents
      | signRequest publicKey msg flags =>
          have hrequest := signRequestFor_of_parse hparse
          have hsigning := signing_perform crates info w publicKey msg flags
          simp only at hevents
          generalize perform crates info w (.signRequest publicKey msg flags) = r
            at hsigning hevents
          -- the pair of the dialog is the one that was found for the key of the request
          have hfound {found : KeyPair} {idx : Nat}
              (hget : Agent.getKey w.config publicKey = some (found, idx))
              (hsame : keyPair = found) :
              ∃ msg flags idx, SignRequestFor buf keyPair.publicKey msg flags ∧
                Agent.getKey w.config keyPair.publicKey = some (keyPair, idx) := by
            obtain ⟨-, -, -, -, hkey, -⟩ := Agent.getKey_eq_some_iff.1 hget
            rw [hsame, hkey]
            exact ⟨msg, flags, idx, hrequest, hget⟩
          cases hsigning with
          | unknown hget => simp at hevents
          | refused hget hyes =>
              simp only [List.mem_singleton, Event.confirm.injEq] at hevents
              exact hfound hget hevents.1
          | failed hget hyes hsign =>
              simp only [List.mem_cons, Event.confirm.injEq, reduceCtorEq, List.not_mem_nil,
                or_false] at hevents
              exact hfound hget hevents.1
          | signed hget hyes hsign =>
              simp only [List.mem_cons, Event.confirm.injEq, reduceCtorEq, List.not_mem_nil,
                or_false] at hevents
              exact hfound hget hevents.1

/-! ## Listed keys -/

/-- The pair is the first of the list whose public key has the encoding `blob`. -/
def FirstEncodedAs (keys : List KeyPair) (blob : Bytes) (keyPair : KeyPair) : Prop :=
  ∃ pre post, keys = pre ++ keyPair :: post ∧ keyPair.publicKey.encode = .ok blob ∧
    ∀ other ∈ pre, other.publicKey.encode ≠ .ok blob

/-- A request for a signature with `blob` shows one dialog, for the first stored pair with this
encoding, whatever the message, the flags and the bytes behind them are. -/
def AskedFor (crates : Crates) (w : World) (blob : Bytes) : Prop :=
  ∃ keyPair, FirstEncodedAs w.config.keys blob keyPair ∧
    ∀ info msg flags rest, msg.length < 2 ^ 32 → flags < 2 ^ 32 →
      ∃ after,
        (Agent.handleRequest crates (signRequestMessage blob msg flags ++ rest) info w).events =
          .request w.config.keys (signRequestMessage blob msg flags ++ rest) info ::
            .confirm keyPair info w.confirms.head :: after ∧
        ∀ keyPair' info' answer, .confirm keyPair' info' answer ∉ after

/-- The pair in charge of a key is the first one with the encoding of the key. -/
theorem firstEncodedAs_of_getKey {config : Config} {k : PublicKey} {blob : Bytes}
    {keyPair : KeyPair} {idx : Nat} (hblob : k.encode = .ok blob)
    (hget : Agent.getKey config k = some (keyPair, idx)) :
    FirstEncodedAs config.keys blob keyPair := by
  obtain ⟨pre, post, hkeys, -, hkey, hpre⟩ := Agent.getKey_eq_some_iff.1 hget
  refine ⟨pre, post, hkeys, by rw [hkey, hblob], ?_⟩
  intro other hother henc
  -- an earlier pair with this encoding would have the key itself
  apply hpre
  rw [PublicKey.encode_injective hblob henc]
  exact List.mem_map_of_mem hother

theorem signRequestFor_signRequestMessage {blob msg : Bytes} {k : PublicKey} {flags : Nat}
    (hblob : k.encode = .ok blob) (hlt : blob.length < 2 ^ 32) (hmsg : msg.length < 2 ^ 32)
    (hflags : flags < 2 ^ 32) (rest : Bytes) :
    SignRequestFor (signRequestMessage blob msg flags ++ rest) k msg flags := by
  refine ⟨blob, rest, hlt, hmsg, hflags, ?_, ?_⟩
  · simp [signRequestMessage]
  · have hdecode := PublicKey.decode_encode hblob []
    rwa [List.append_nil] at hdecode

/-- A stored key is asked for under its encoding. -/
theorem askedFor_of_mem (crates : Crates) {w : World} {k : PublicKey} {blob : Bytes}
    (hmem : k ∈ w.publicKeys) (hblob : k.encode = .ok blob) (hlt : blob.length < 2 ^ 32) :
    AskedFor crates w blob := by
  obtain ⟨⟨keyPair, idx⟩, hget⟩ := Agent.getKey_isSome_iff.2 hmem
  refine ⟨keyPair, firstEncodedAs_of_getKey hblob hget, ?_⟩
  intro info msg flags rest hmsg hflags
  have hrequest := signRequestFor_signRequestMessage hblob hlt hmsg hflags rest
  refine ⟨_, handleRequest_events_of_getKey crates info hrequest hget, ?_⟩
  intro keyPair' info' answer
  split <;> simp

theorem Listed.exists_keyPair {keys : List KeyPair} {entries : List (Bytes × Bytes)}
    (h : Listed keys entries) {entry : Bytes × Bytes} (hentry : entry ∈ entries) :
    ∃ keyPair ∈ keys, keyPair.publicKey.encode = .ok entry.1 := by
  induction h with
  | nil => simp at hentry
  | @cons keyPair entry' keys entries hhead htail ih =>
      rcases List.mem_cons.1 hentry with rfl | hentry
      · exact ⟨keyPair, List.mem_cons_self, hhead.1⟩
      · obtain ⟨found, hfound, hblob⟩ := ih hentry
        exact ⟨found, List.mem_cons_of_mem keyPair hfound, hblob⟩

/-- A request that shows the listing changes nothing. -/
theorem world_of_identities {crates : Crates} {info : RequestInfo} {w : World} {buf resp : Bytes}
    (h : (Agent.handleRequest crates buf info w).outcome = .ok resp)
    (htype : resp.head? = some sshAgentIdentitiesAnswer) :
    (∃ entries, Listed w.config.keys entries ∧ resp = (Reply.identities entries).write) ∧
      (Agent.handleRequest crates buf info w).world = w := by
  rw [outcome_handleRequest] at h
  obtain ⟨reply, hanswers, rfl⟩ := exists_answers_of_handled h
  rw [Reply.head?_write, Option.some.injEq] at htype
  cases hanswers with
  | failure => exact absurd htype (show sshAgentFailure ≠ sshAgentIdentitiesAnswer by decide)
  | success hhead => exact absurd htype (show sshAgentSuccess ≠ sshAgentIdentitiesAnswer by decide)
  | signResponse hhead =>
      exact absurd htype (show sshAgentSignResponse ≠ sshAgentIdentitiesAnswer by decide)
  | @identities entries hhead hlisted =>
      refine ⟨⟨entries, hlisted, rfl⟩, ?_⟩
      cases buf with
      | nil => simp at hhead
      | cons msgType req =>
          rw [List.head?_cons, Option.some.injEq] at hhead
          subst hhead
          rw [world_handleRequest]
          rfl

/-- **What is listed can be signed with, and only that.** Every key of a listing is asked for under
its blob in every later state. A dialog is shown only for a request whose blob is decoded to the
public key of a stored pair. -/
theorem listed_keys_are_asked_for (crates : Crates) (w : World) :
    (∀ buf info resp, (Agent.handleRequest crates buf info w).outcome = .ok resp →
      resp.head? = some sshAgentIdentitiesAnswer →
      ∃ entries, Listed w.config.keys entries ∧ resp = (Reply.identities entries).write ∧
        ∀ entry ∈ entries, entry.1.length < 2 ^ 32 → ∀ calls w',
          (agentMachine crates).run (Agent.handleRequest crates buf info w).world calls = some w' →
          AskedFor crates w' entry.1) ∧
    (∀ buf info keyPair info' answer,
      .confirm keyPair info' answer ∈ (Agent.handleRequest crates buf info w).events →
      keyPair ∈ w.config.keys ∧ ∃ msg flags, SignRequestFor buf keyPair.publicKey msg flags) := by
  constructor
  · intro buf info resp h htype
    obtain ⟨⟨entries, hlisted, hresp⟩, hworld⟩ := world_of_identities h htype
    refine ⟨entries, hlisted, hresp, ?_⟩
    intro entry hentry hlt calls w' hrun
    rw [hworld] at hrun
    obtain ⟨keyPair, hmem, hblob⟩ := hlisted.exists_keyPair hentry
    -- the listed pair is still stored, since the list only grows
    obtain ⟨more, hmore⟩ := exists_run_keys_eq_append hrun
    have hmem' : keyPair.publicKey ∈ w'.publicKeys := by
      rw [World.publicKeys, hmore]
      exact List.mem_map_of_mem (List.mem_append_left more hmem)
    exact askedFor_of_mem crates hmem' hblob hlt
  · intro buf info keyPair info' answer h
    obtain ⟨msg, flags, idx, hrequest, hget⟩ := signRequestFor_of_confirm h
    obtain ⟨pre, post, hkeys, -, -, -⟩ := Agent.getKey_eq_some_iff.1 hget
    refine ⟨?_, msg, flags, hrequest⟩
    rw [hkeys]
    exact List.mem_append_right pre List.mem_cons_self

/-- A key is listed, another one is added, and the first is still asked for. -/
theorem listed_keys_are_asked_for_small :
    ∃ w', (agentMachine Reference.crates).run (holding [smallPair smallKey "a"])
        [⟨⟨"Pipe", none⟩, addIdentityRequest { smallKey with e := 7 } "b"⟩] = some w' ∧
      AskedFor Reference.crates w' smallBlob ∧
      ∃ msg flags, SignRequestFor (signRequestMessage smallBlob [2] 4)
        (smallPair smallKey "a").publicKey msg flags := by
  obtain ⟨w', hrun⟩ := Option.isSome_iff_exists.1
    (show ((agentMachine Reference.crates).run (holding [smallPair smallKey "a"])
      [⟨⟨"Pipe", none⟩, addIdentityRequest { smallKey with e := 7 } "b"⟩]).isSome = true by
      decide +kernel)
  have h := listed_keys_are_asked_for Reference.crates (holding [smallPair smallKey "a"])
  obtain ⟨entries, hlisted, -, hasked⟩ := h.1 [sshAgentcRequestIdentities] ⟨"Pipe", none⟩
    (Reply.identities [(smallBlob, utf8 "a")]).write (by decide +kernel) rfl
  obtain ⟨-, hconfirm⟩ := h.2 (signRequestMessage smallBlob [2] 4) ⟨"Pipe", none⟩
    (smallPair smallKey "a") ⟨"Pipe", none⟩ true (by decide +kernel)
  refine ⟨w', hrun, ?_, hconfirm⟩
  rcases hlisted with _ | ⟨⟨hblob, -⟩, -⟩
  have hsmall : (smallPair smallKey "a").publicKey.encode = .ok smallBlob := by decide +kernel
  rw [hblob, Outcome.ok.injEq] at hsmall
  rw [← hsmall]
  exact hasked _ List.mem_cons_self (by rw [hsmall]; decide) _ w' hrun

/-! ## Added keys -/

/-- The pair that answers for the public key of `added` once the agent has handled its addition. -/
def inCharge (w : World) (added : KeyPair) : KeyPair :=
  match Agent.getKey w.config added.publicKey with
  | some (stored, _) => stored
  | none => added

/-- Every confirmed request for a signature with the public key `k` is signed with `key`. -/
def SignsWith (crates : Crates) (w : World) (k : PublicKey) (key : PrivateKey) : Prop :=
  ∀ buf info msg flags, SignRequestFor buf k msg flags → w.confirms.head = true →
    ∃ keyPair, (Agent.handleRequest crates buf info w).events =
      [.request w.config.keys buf info, .confirm keyPair info true,
        .sign key msg flags (key.sign crates.toOpenssl msg flags).toOption]

/-- The key that an accepted addition carries signs for its public key from then on. -/
def AcceptedKeySigns (crates : Crates) (w : World) (add : Call) (mid : List Call) : Prop :=
  ∀ added w', addedBy add.buf = some added →
    (Agent.handleRequest crates add.buf add.info w).outcome = .ok [sshAgentSuccess] →
    (agentMachine crates).run w (add :: mid) = some w' →
    SignsWith crates w' added.publicKey added.privateKey

theorem inCharge_of_new {w : World} {added : KeyPair} (h : added.publicKey ∉ w.publicKeys) :
    inCharge w added = added := by
  rw [inCharge, Agent.getKey_eq_none_iff.2 h]

/-- The private key of an addition is computed from the six numbers that the request carries. -/
theorem exists_fields_of_addedBy {buf : Bytes} {added : KeyPair} (h : addedBy buf = some added) :
    ∃ req f rest, buf = sshAgentcAddIdentity :: req ∧ RsaFields.read req = .ok (f, rest) ∧
      f.toKey = .ok added.privateKey := by
  have hparse := addedBy_eq_some_iff.1 h
  have hhead := head?_of_parse hparse
  cases buf with
  | nil => simp at hhead
  | cons msgType req =>
      rw [List.head?_cons, Option.some.injEq] at hhead
      subst hhead
      have hwire : (KeyPair.fromWire req >>= fun p => pure (Command.addIdentity p.1)) =
          .ok (.addIdentity added) := hparse
      obtain ⟨⟨keyPair, rest⟩, hkeyPair, hadded⟩ := Outcome.bind_eq_ok_iff.1 hwire
      rw [Outcome.pure_eq, Outcome.ok.injEq, Command.addIdentity.injEq] at hadded
      subst hadded
      rw [KeyPair.fromWire, Decoder.bind_eq_ok_iff] at hkeyPair
      obtain ⟨key, mid, hkey, hname⟩ := hkeyPair
      obtain ⟨name, mid', -, hname⟩ := Decoder.bind_eq_ok_iff.1 hname
      rw [Decoder.pure_apply, Outcome.ok.injEq, Prod.mk.injEq] at hname
      rw [Decoder.mapErr_apply, Outcome.mapErr_eq_ok_iff, PrivateKey.fromWire_eq,
        Decoder.bind_eq_ok_iff] at hkey
      obtain ⟨f, mid'', hread, htoKey⟩ := hkey
      refine ⟨req, f, mid'', rfl, hread, ?_⟩
      rw [← hname.1]
      exact (Decoder.lift_eq_ok_iff.1 htoKey).1

/-- After an addition its pair in charge is found. -/
theorem getKey_handled_of_addedBy (crates : Crates) (info : RequestInfo) (w : World) {buf : Bytes}
    {added : KeyPair} (h : addedBy buf = some added) :
    ∃ idx, Agent.getKey (handled crates info w buf).world.config added.publicKey =
      some (inCharge w added, idx) := by
  cases hget : Agent.getKey w.config added.publicKey with
  | some entry =>
      rcases entry with ⟨stored, idx⟩
      have hmem : added.publicKey ∈ w.publicKeys := Agent.getKey_isSome_iff.1 ⟨_, hget⟩
      refine ⟨idx, ?_⟩
      rw [handled_of_present h hmem, inCharge, hget]
  | none =>
      have hnew : added.publicKey ∉ w.publicKeys := Agent.getKey_eq_none_iff.1 hget
      refine ⟨w.config.keys.length, ?_⟩
      rw [handled_of_new h hnew, inCharge_of_new hnew]
      exact Agent.getKey_eq_some_iff.2 ⟨w.config.keys, [], rfl, rfl, rfl, hnew⟩

theorem signsWith_of_getKey (crates : Crates) {w : World} {k : PublicKey} {keyPair : KeyPair}
    {idx : Nat} (hget : Agent.getKey w.config k = some (keyPair, idx)) :
    SignsWith crates w k keyPair.privateKey := by
  intro buf info msg flags hrequest hyes
  have hevents := handleRequest_events_of_getKey crates info hrequest hget
  rw [hyes, if_pos rfl] at hevents
  exact ⟨keyPair, hevents⟩

/-- **The key in charge.** After an addition, every confirmed signature with its public key is made
with the stored private key that was in charge of this public key before, and with the added one,
computed from the numbers of the request, if there was none. -/
theorem added_key_signs (crates : Crates) (w w' : World) (add : Call) (mid : List Call)
    (added : KeyPair) (hadd : addedBy add.buf = some added)
    (hrun : (agentMachine crates).run w (add :: mid) = some w') :
    SignsWith crates w' added.publicKey (inCharge w added).privateKey ∧
      (added.publicKey ∉ w.publicKeys → inCharge w added = added) ∧
      ∃ req f rest, add.buf = sshAgentcAddIdentity :: req ∧ RsaFields.read req = .ok (f, rest) ∧
        f.toKey = .ok added.privateKey := by
  refine ⟨?_, inCharge_of_new, exists_fields_of_addedBy hadd⟩
  obtain ⟨w₁, hstep, hmid⟩ := Machine.run_cons_eq_some hrun
  obtain ⟨idx, hget⟩ := getKey_handled_of_addedBy crates add.info w hadd
  rw [← agentMachine_step_eq_some hstep] at hget
  exact signsWith_of_getKey crates (getKey_run hmid hget)

/-- A new key is added, a listing follows, and the key signs. -/
theorem added_key_signs_small :
    ∃ w', (agentMachine Reference.crates).run (emptyWorld true .none)
        [⟨⟨"Pipe", none⟩, addIdentityRequest smallKey "a"⟩,
          ⟨⟨"Unix", none⟩, [sshAgentcRequestIdentities]⟩] = some w' ∧
      SignsWith Reference.crates w' (smallPair smallKey "a").publicKey
        (smallPair smallKey "a").privateKey := by
  obtain ⟨w', hrun⟩ := Option.isSome_iff_exists.1
    (show ((agentMachine Reference.crates).run (emptyWorld true .none)
      [⟨⟨"Pipe", none⟩, addIdentityRequest smallKey "a"⟩,
        ⟨⟨"Unix", none⟩, [sshAgentcRequestIdentities]⟩]).isSome = true by decide +kernel)
  obtain ⟨hsigns, hnew, -⟩ := added_key_signs Reference.crates _ w' _ _ (smallPair smallKey "a")
    (by decide +kernel) hrun
  rw [hnew (by decide)] at hsigns
  exact ⟨w', hrun, hsigns⟩

/-- The agent after the first of two additions with the same public key. -/
def worldWithOther : World :=
  (handled Reference.crates ⟨"Pipe", none⟩ (emptyWorld true .none)
    (addIdentityRequest { smallKey with d := 5 } "a")).world

/-- A key whose public key is stored with another exponent is accepted, and the old exponent
signs. -/
theorem accepted_key_is_dropped :
    (agentMachine Reference.crates).run (emptyWorld true .none)
        [⟨⟨"Pipe", none⟩, addIdentityRequest { smallKey with d := 5 } "a"⟩] = some worldWithOther ∧
      ¬ AcceptedKeySigns Reference.crates worldWithOther
        ⟨⟨"Pipe", none⟩, addIdentityRequest smallKey "b"⟩ [] := by
  constructor
  · have hreply : (handled Reference.crates ⟨"Pipe", none⟩ (emptyWorld true .none)
        (addIdentityRequest { smallKey with d := 5 } "a")).outcome = .ok [sshAgentSuccess] := by
      decide +kernel
    rw [Machine.run, agentMachine_step_of_ok hreply]
    rfl
  · intro h
    have hadd : addedBy (addIdentityRequest smallKey "b") = some (smallPair smallKey "b") := by
      decide +kernel
    have hhandled : handled Reference.crates ⟨"Pipe", none⟩ worldWithOther
        (addIdentityRequest smallKey "b") = ⟨.ok [sshAgentSuccess], worldWithOther, []⟩ :=
      handled_of_present hadd (by decide +kernel)
    have hsuccess : (Agent.handleRequest Reference.crates (addIdentityRequest smallKey "b")
        ⟨"Pipe", none⟩ worldWithOther).outcome = .ok [sshAgentSuccess] := by
      rw [outcome_handleRequest, hhandled]
    have hrun : (agentMachine Reference.crates).run worldWithOther
        [⟨⟨"Pipe", none⟩, addIdentityRequest smallKey "b"⟩] = some worldWithOther := by
      rw [Machine.run, agentMachine_step_of_ok (congrArg Ran.outcome hhandled), hhandled]
      rfl
    have hsigns := h (smallPair smallKey "b") worldWithOther hadd hsuccess hrun
    obtain ⟨keyPair, hevents⟩ := hsigns (signRequestMessage smallBlob [2] 4) ⟨"Pipe", none⟩ [2] 4
      (parse_eq_signRequest_iff.1 (by decide +kernel)) (by decide +kernel)
    have hlast : (Agent.handleRequest Reference.crates (signRequestMessage smallBlob [2] 4)
        ⟨"Pipe", none⟩ worldWithOther).events.getLast? =
          some (.sign (smallPair smallKey "b").privateKey [2] 4
            ((smallPair smallKey "b").privateKey.sign
              Reference.crates.toOpenssl [2] 4).toOption) := by
      rw [hevents]
      rfl
    exact absurd hlast (by decide +kernel)

end SshKeys
