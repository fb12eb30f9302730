import SshKeys.Agent

/-!
# What a request asks for, and what the agent does

An abstract view of `Agent.handleRequest` in two halves. `Command.parse` says what a request asks
for: a listing, an addition or a signature; everything else is malformed. `perform` says what the
agent does for a command, without the parsing. `Agent.handleRequest_eq` is the refinement: handling
a request is performing its command, a malformed request is answered with a failure and changes
nothing, and a request whose parsing panics ends in that panic and changes nothing.
-/

set_option autoImplicit false

namespace SshKeys

open Lib

/-- What a well-formed request asks for. -/
inductive Command where
  | requestIdentities
  | addIdentity (keyPair : KeyPair)
  | signRequest (publicKey : PublicKey) (msg : Bytes) (flags : Nat)
  deriving DecidableEq

/-- The command of a request. An error is a malformed request or a type the agent does not know. -/
def Command.parse (buf : Bytes) : Outcome Error Command := do
  let (msgType, req) ← readU8 buf
  if msgType = sshAgentcRequestIdentities then
    pure .requestIdentities
  else if msgType = sshAgentcAddIdentity then do
    let (keyPair, _) ← KeyPair.fromWire req
    pure (.addIdentity keyPair)
  else if msgType = sshAgentcSignRequest then do
    let (blob, req) ← readString req
    let publicKey ← PublicKey.decode blob
    let (msg, req) ← readString req
    let (flags, _) ← readU32 req
    pure (.signRequest publicKey msg flags)
  else
    .err (.new "unknown message type")

/-- The public keys of the agent's list. -/
def World.publicKeys (w : World) : List PublicKey := w.config.keys.map KeyPair.publicKey

/-- What saving returns once the key pair is in the list, and the file it leaves. -/
def World.saved (crates : Crates) (w : World) (keyPair : KeyPair) :
    Outcome Error Unit × Option Bytes :=
  Config.save crates w.saves.head { keys := w.config.keys ++ [keyPair] } w.file

/-- The save succeeds once the key pair is in the list. -/
def World.SaveOk (crates : Crates) (w : World) (keyPair : KeyPair) : Prop :=
  (w.saved crates keyPair).1 = .ok ()

instance (crates : Crates) (w : World) (keyPair : KeyPair) :
    Decidable (w.SaveOk crates keyPair) :=
  inferInstanceAs (Decidable ((w.saved crates keyPair).1 = .ok ()))

/-- The world with the key pair at the end of the list, after the save. -/
def World.store (crates : Crates) (w : World) (keyPair : KeyPair) : World :=
  { w with
    config := { keys := w.config.keys ++ [keyPair] }
    file := (w.saved crates keyPair).2
    saves := w.saves.tail }

/-- The world after the user has answered a dialog. -/
def World.asked (w : World) : World := { w with confirms := w.confirms.tail }

/-- The answer to a listing. -/
def identitiesAnswer (keys : List KeyPair) : Outcome Error Bytes := do
  let entries ← Agent.writeIdentities keys
  pure (sshAgentIdentitiesAnswer :: (writeU32 (keys.length % 2 ^ 32) ++ entries))

/-- What the agent does for a command. -/
def perform (crates : Crates) (info : RequestInfo) (w : World) :
    Command → Ran World Event Error Bytes
  | .requestIdentities => ⟨identitiesAnswer w.config.keys, w, []⟩
  | .addIdentity keyPair =>
      if keyPair.publicKey ∈ w.publicKeys then ⟨.ok [sshAgentSuccess], w, []⟩
      else if w.SaveOk crates keyPair then
        ⟨.ok [sshAgentSuccess], w.store crates keyPair, [.save true]⟩
      -- the key pair stays although the reply is a failure
      else ⟨.ok [sshAgentFailure], w.store crates keyPair, [.save false]⟩
  | .signRequest publicKey msg flags =>
      match Agent.getKey w.config publicKey with
      | none => ⟨.ok [sshAgentFailure], w, []⟩
      | some (keyPair, _) =>
          if w.confirms.head then
            match (keyPair.privateKey.sign crates.toOpenssl msg flags).toOption with
            | some sig =>
                ⟨.ok (sshAgentSignResponse :: writeString sig), w.asked,
                  [.confirm keyPair info true, .sign keyPair.privateKey msg flags (some sig)]⟩
            | none =>
                ⟨.ok [sshAgentFailure], w.asked,
                  [.confirm keyPair info true, .sign keyPair.privateKey msg flags none]⟩
          else ⟨.ok [sshAgentFailure], w.asked, [.confirm keyPair info false]⟩

/-- What an addition can lead to. -/
inductive Adding (crates : Crates) (w : World) (keyPair : KeyPair) :
    Ran World Event Error Bytes → Prop where
  | present : keyPair.publicKey ∈ w.publicKeys →
      Adding crates w keyPair ⟨.ok [sshAgentSuccess], w, []⟩
  | saved : keyPair.publicKey ∉ w.publicKeys → w.SaveOk crates keyPair →
      Adding crates w keyPair ⟨.ok [sshAgentSuccess], w.store crates keyPair, [.save true]⟩
  | unsaved : keyPair.publicKey ∉ w.publicKeys → ¬ w.SaveOk crates keyPair →
      Adding crates w keyPair ⟨.ok [sshAgentFailure], w.store crates keyPair, [.save false]⟩

theorem adding_perform (crates : Crates) (info : RequestInfo) (w : World) (keyPair : KeyPair) :
    Adding crates w keyPair (perform crates info w (.addIdentity keyPair)) := by
  rw [perform]
  by_cases hmem : keyPair.publicKey ∈ w.publicKeys
  · rw [if_pos hmem]
    exact .present hmem
  · rw [if_neg hmem]
    by_cases hsave : w.SaveOk crates keyPair
    · rw [if_pos hsave]
      exact .saved hmem hsave
    · rw [if_neg hsave]
      exact .unsaved hmem hsave

/-- What a request for a signature can lead to. -/
inductive Signing (crates : Crates) (info : RequestInfo) (w : World) (publicKey : PublicKey)
    (msg : Bytes) (flags : Nat) : Ran World Event Error Bytes → Prop where
  | unknown : Agent.getKey w.config publicKey = none →
      Signing crates info w publicKey msg flags ⟨.ok [sshAgentFailure], w, []⟩
  | refused {keyPair : KeyPair} {idx : Nat} :
      Agent.getKey w.config publicKey = some (keyPair, idx) → w.confirms.head = false →
      Signing crates info w publicKey msg flags
        ⟨.ok [sshAgentFailure], w.asked, [.confirm keyPair info false]⟩
  | failed {keyPair : KeyPair} {idx : Nat} :
      Agent.getKey w.config publicKey = some (keyPair, idx) → w.confirms.head = true →
      (keyPair.privateKey.sign crates.toOpenssl msg flags).toOption = none →
      Signing crates info w publicKey msg flags
        ⟨.ok [sshAgentFailure], w.asked,
          [.confirm keyPair info true, .sign keyPair.privateKey msg flags none]⟩
  | signed {keyPair : KeyPair} {idx : Nat} {sig : Bytes} :
      Agent.getKey w.config publicKey = some (keyPair, idx) → w.confirms.head = true →
      (keyPair.privateKey.sign crates.toOpenssl msg flags).toOption = some sig →
      Signing crates info w publicKey msg flags
        ⟨.ok (sshAgentSignResponse :: writeString sig), w.asked,
          [.confirm keyPair info true, .sign keyPair.privateKey msg flags (some sig)]⟩

theorem signing_perform (crates : Crates) (info : RequestInfo) (w : World) (publicKey : PublicKey)
    (msg : Bytes) (flags : Nat) :
    Signing crates info w publicKey msg flags
      (perform crates info w (.signRequest publicKey msg flags)) := by
  rw [perform]
  cases hget : Agent.getKey w.config publicKey with
  | none => exact .unknown hget
  | some entry =>
      rcases entry with ⟨keyPair, idx⟩
      simp only
      cases hyes : w.confirms.head with
      | false => exact .refused hget hyes
      | true =>
          cases hsign : (keyPair.privateKey.sign crates.toOpenssl msg flags).toOption with
          | none => exact .failed hget hyes hsign
          | some sig => exact .signed hget hyes hsign

/-- What a request leads to. -/
def handled (crates : Crates) (info : RequestInfo) (w : World) (buf : Bytes) :
    Ran World Event Error Bytes :=
  match Command.parse buf with
  | .ok command => perform crates info w command
  | .err _ => ⟨.ok [sshAgentFailure], w, []⟩
  | .panic => ⟨.panic, w, []⟩

/-- Neither the reply nor the keys, the file or the answers depend on who asks. -/
theorem perform_info (crates : Crates) (info info' : RequestInfo) (w : World) (command : Command) :
    (perform crates info w command).outcome = (perform crates info' w command).outcome ∧
      (perform crates info w command).world = (perform crates info' w command).world := by
  cases command with
  | requestIdentities => exact ⟨rfl, rfl⟩
  | addIdentity keyPair => exact ⟨rfl, rfl⟩
  | signRequest publicKey msg flags =>
      rw [perform, perform]
      cases Agent.getKey w.config publicKey with
      | none => exact ⟨rfl, rfl⟩
      | some entry =>
          rcases entry with ⟨keyPair, idx⟩
          simp only
          cases w.confirms.head with
          | false => exact ⟨rfl, rfl⟩
          | true =>
              cases (keyPair.privateKey.sign crates.toOpenssl msg flags).toOption with
              | none => exact ⟨rfl, rfl⟩
              | some sig => exact ⟨rfl, rfl⟩

theorem handled_info (crates : Crates) (info info' : RequestInfo) (w : World) (buf : Bytes) :
    (handled crates info w buf).outcome = (handled crates info' w buf).outcome ∧
      (handled crates info w buf).world = (handled crates info' w buf).world := by
  rw [handled, handled]
  cases Command.parse buf with
  | ok command => exact perform_info crates info info' w command
  | err e => exact ⟨rfl, rfl⟩
  | panic => exact ⟨rfl, rfl⟩

/-! ## What a request is read as -/

/-- `buf` asks for a signature of `msg` with the key `publicKey`. -/
def SignRequestFor (buf : Bytes) (publicKey : PublicKey) (msg : Bytes) (flags : Nat) : Prop :=
  ∃ blob rest, blob.length < 2 ^ 32 ∧ msg.length < 2 ^ 32 ∧ flags < 2 ^ 32 ∧
    buf = sshAgentcSignRequest ::
      (writeString blob ++ (writeString msg ++ (writeU32 flags ++ rest))) ∧
    PublicKey.decode blob = .ok publicKey

theorem signRequestFor_of_parse {buf msg : Bytes} {publicKey : PublicKey} {flags : Nat}
    (h : Command.parse buf = .ok (.signRequest publicKey msg flags)) :
    SignRequestFor buf publicKey msg flags := by
  cases buf with
  | nil => simp [Command.parse, readU8] at h
  | cons msgType req =>
  rw [Command.parse, readU8, Outcome.ok_bind] at h
  simp only at h
  by_cases hlist : msgType = sshAgentcRequestIdentities
  · rw [if_pos hlist] at h
    simp at h
  rw [if_neg hlist] at h
  by_cases hadd : msgType = sshAgentcAddIdentity
  · rw [if_pos hadd] at h
    simp [Outcome.bind_eq_ok_iff] at h
  rw [if_neg hadd] at h
  by_cases hsign : msgType = sshAgentcSignRequest
  · rw [if_pos hsign, Outcome.bind_eq_ok_iff] at h
    -- the fields one after the other, each read from the front of what the last one left
    obtain ⟨⟨blob, req₁⟩, hblob, h⟩ := h
    obtain ⟨key, hkey, h⟩ := Outcome.bind_eq_ok_iff.1 h
    obtain ⟨⟨msg', req₂⟩, hmsg, h⟩ := Outcome.bind_eq_ok_iff.1 h
    obtain ⟨⟨flags', rest⟩, hflags, h⟩ := Outcome.bind_eq_ok_iff.1 h
    simp only [Outcome.pure_eq, Outcome.ok.injEq, Command.signRequest.injEq] at h
    obtain ⟨rfl, rfl, rfl⟩ := h
    obtain ⟨hblobLt, rfl⟩ := readString_eq_ok_iff.1 hblob
    obtain ⟨hmsgLt, rfl⟩ := readString_eq_ok_iff.1 hmsg
    obtain ⟨hflagsLt, rfl⟩ := readU32_eq_ok_iff.1 hflags
    exact ⟨blob, rest, hblobLt, hmsgLt, hflagsLt, by rw [hsign], hkey⟩
  · rw [if_neg hsign] at h
    cases h

/-- A request is read as a request for a signature exactly when it is one. -/
theorem parse_eq_signRequest_iff {buf msg : Bytes} {publicKey : PublicKey} {flags : Nat} :
    Command.parse buf = .ok (.signRequest publicKey msg flags) ↔
      SignRequestFor buf publicKey msg flags := by
  constructor
  · exact signRequestFor_of_parse
  · rintro ⟨blob, rest, hblobLt, hmsgLt, hflagsLt, rfl, hkey⟩
    have hne : sshAgentcSignRequest ≠ sshAgentcRequestIdentities := by decide
    have hne' : sshAgentcSignRequest ≠ sshAgentcAddIdentity := by decide
    rw [Command.parse, readU8, Outcome.ok_bind]
    simp only [if_neg hne, if_neg hne', if_pos]
    rw [readString_writeString hblobLt, Outcome.ok_bind]
    simp only [hkey, Outcome.ok_bind, readString_writeString hmsgLt, readU32_writeU32 hflagsLt]
    rfl

/-- The message type of the requests for a command. -/
def Command.msgType : Command → UInt8
  | .requestIdentities => sshAgentcRequestIdentities
  | .addIdentity _ => sshAgentcAddIdentity
  | .signRequest _ _ _ => sshAgentcSignRequest

theorem head?_of_parse {buf : Bytes} {command : Command} (h : Command.parse buf = .ok command) :
    buf.head? = some command.msgType := by
  cases buf with
  | nil => simp [Command.parse, readU8] at h
  | cons msgType req =>
  rw [Command.parse, readU8, Outcome.ok_bind] at h
  simp only at h
  rw [List.head?_cons, Option.some.injEq]
  by_cases hlist : msgType = sshAgentcRequestIdentities
  · rw [if_pos hlist, Outcome.pure_eq, Outcome.ok.injEq] at h
    rw [← h]
    exact hlist
  rw [if_neg hlist] at h
  by_cases hadd : msgType = sshAgentcAddIdentity
  · rw [if_pos hadd] at h
    obtain ⟨p, -, h⟩ := Outcome.bind_eq_ok_iff.1 h
    rw [Outcome.pure_eq, Outcome.ok.injEq] at h
    rw [← h]
    exact hadd
  rw [if_neg hadd] at h
  by_cases hsign : msgType = sshAgentcSignRequest
  · rw [if_pos hsign] at h
    obtain ⟨blob, -, h⟩ := Outcome.bind_eq_ok_iff.1 h
    obtain ⟨key, -, h⟩ := Outcome.bind_eq_ok_iff.1 h
    obtain ⟨msg, -, h⟩ := Outcome.bind_eq_ok_iff.1 h
    obtain ⟨flags, -, h⟩ := Outcome.bind_eq_ok_iff.1 h
    rw [Outcome.pure_eq, Outcome.ok.injEq] at h
    rw [← h]
    exact hsign
  · rw [if_neg hsign] at h
    cases h

/-! ## The refinement -/

/-- A run with its error, if it ended in one, turned into the failure reply. -/
def failErr (r : Ran World Event Error Bytes) : Ran World Event Error Bytes :=
  match r with
  | ⟨.err _, w, events⟩ => ⟨.ok [sshAgentFailure], w, events⟩
  | ⟨outcome, w, events⟩ => ⟨outcome, w, events⟩

theorem failErr_mapErr (f : Error → Error) (m : Act Bytes) (w : World) :
    failErr (m.mapErr f w) = failErr (m w) := by
  rw [Effect.mapErr_apply]
  rcases m w with ⟨outcome, w', events⟩
  cases outcome <;> rfl

theorem Config.save_ne_panic (crates : Crates) (fault : SaveFault) (config : Config)
    (file : Option Bytes) : (Config.save crates fault config file).1 ≠ .panic := by
  unfold Config.save
  cases fault with
  | create => simp
  | none => cases crates.toStringPretty (serializeKeyPairs crates.toOpenssl config.keys) <;> simp
  | write room =>
      cases crates.toStringPretty (serializeKeyPairs crates.toOpenssl config.keys) with
      | none => simp
      | some bytes => by_cases hroom : room < bytes.length <;> simp [hroom]

/-- A listing is written when all keys can be encoded, -/
theorem exists_writeIdentities_eq_ok {keys : List KeyPair}
    (h : ∀ keyPair ∈ keys, keyPair.publicKey.Usable) :
    ∃ out, Agent.writeIdentities keys = .ok out := by
  induction keys with
  | nil => exact ⟨[], rfl⟩
  | cons keyPair keys ih =>
      obtain ⟨blob, hblob⟩ := PublicKey.exists_encode_eq_ok (h keyPair List.mem_cons_self)
      obtain ⟨rest, hrest⟩ := ih fun k hk => h k (List.mem_cons_of_mem _ hk)
      refine ⟨writeString blob ++ writeString (utf8 keyPair.name) ++ rest, ?_⟩
      rw [Agent.writeIdentities, hblob, Outcome.ok_bind, hrest]
      rfl

/-- and panics at the first key that cannot. -/
theorem writeIdentities_eq_panic {keys : List KeyPair}
    (h : ∃ keyPair ∈ keys, ¬ keyPair.publicKey.Usable) :
    Agent.writeIdentities keys = .panic := by
  induction keys with
  | nil => simp at h
  | cons keyPair keys ih =>
      rw [Agent.writeIdentities]
      by_cases hu : keyPair.publicKey.Usable
      · obtain ⟨blob, hblob⟩ := PublicKey.exists_encode_eq_ok hu
        obtain ⟨k, hk, hku⟩ := h
        have hkeys : k ∈ keys := by
          rcases List.mem_cons.1 hk with rfl | hk
          · exact absurd hu hku
          · exact hk
        rw [hblob, Outcome.ok_bind, ih ⟨k, hkeys, hku⟩]
        rfl
      · rw [PublicKey.encode_eq_panic_iff.2 hu]
        rfl

theorem exists_identitiesAnswer_eq_ok {keys : List KeyPair}
    (h : ∀ keyPair ∈ keys, keyPair.publicKey.Usable) :
    ∃ out, identitiesAnswer keys = .ok (sshAgentIdentitiesAnswer :: out) := by
  obtain ⟨entries, hentries⟩ := exists_writeIdentities_eq_ok h
  refine ⟨writeU32 (keys.length % 2 ^ 32) ++ entries, ?_⟩
  rw [identitiesAnswer, hentries]
  rfl

theorem identitiesAnswer_eq_panic {keys : List KeyPair}
    (h : ∃ keyPair ∈ keys, ¬ keyPair.publicKey.Usable) : identitiesAnswer keys = .panic := by
  rw [identitiesAnswer, writeIdentities_eq_panic h]
  rfl

namespace Agent

theorem getKey_isSome_iff {w : World} {k : PublicKey} :
    (∃ entry, getKey w.config k = some entry) ↔ k ∈ w.publicKeys := by
  rw [World.publicKeys, ← not_iff_not, ← getKey_eq_none_iff, not_exists]
  exact Option.eq_none_iff_forall_ne_some.symm

theorem addKey_of_mem {crates : Crates} {w : World} {keyPair : KeyPair}
    (h : keyPair.publicKey ∈ w.publicKeys) : addKey crates keyPair w = ⟨.ok (), w, []⟩ := by
  obtain ⟨entry, hentry⟩ := getKey_isSome_iff.2 h
  rw [addKey, Effect.bind_of_ok (show getConfig w = ⟨.ok w.config, w, []⟩ from rfl), hentry]
  rfl

theorem addKey_of_notMem {crates : Crates} {w : World} {keyPair : KeyPair}
    (h : keyPair.publicKey ∉ w.publicKeys) :
    addKey crates keyPair w =
      ⟨(w.saved crates keyPair).1.mapErr (.wrap "save config"), w.store crates keyPair,
        [.save (w.SaveOk crates keyPair)]⟩ := by
  have hnone : getKey w.config keyPair.publicKey = none := getKey_eq_none_iff.2 h
  rw [addKey, Effect.bind_of_ok (show getConfig w = ⟨.ok w.config, w, []⟩ from rfl), hnone]
  rfl

theorem failErr_respond_identities (crates : Crates) (req : Bytes) (info : RequestInfo)
    (w : World) :
    failErr (respond crates sshAgentcRequestIdentities req info w) =
      perform crates info w .requestIdentities := by
  have hconfig : getConfig w = ⟨.ok w.config, w, []⟩ := rfl
  rw [respond, if_pos rfl, Effect.bind_of_ok hconfig, Effect.lift_bind_apply, perform,
    identitiesAnswer]
  by_cases hu : ∀ keyPair ∈ w.config.keys, keyPair.publicKey.Usable
  · obtain ⟨entries, hentries⟩ := exists_writeIdentities_eq_ok hu
    rw [hentries]
    rfl
  · have hex : ∃ keyPair ∈ w.config.keys, ¬ keyPair.publicKey.Usable := by
      simpa using hu
    rw [writeIdentities_eq_panic hex]
    rfl

theorem failErr_respond_add (crates : Crates) (req : Bytes) (info : RequestInfo) (w : World) :
    failErr (respond crates sshAgentcAddIdentity req info w) =
      match KeyPair.fromWire req with
      | .ok (keyPair, _) => perform crates info w (.addIdentity keyPair)
      | .err _ => ⟨.ok [sshAgentFailure], w, []⟩
      | .panic => ⟨.panic, w, []⟩ := by
  have hne : sshAgentcAddIdentity ≠ sshAgentcRequestIdentities := by decide
  rw [respond, if_neg hne, if_pos rfl, Effect.lift_bind_apply]
  cases hreq : KeyPair.fromWire req with
  | err e => rfl
  | panic => rfl
  | ok p =>
      rcases p with ⟨keyPair, rest⟩
      simp only [Outcome.mapErr_ok, perform]
      -- a key in the list is acknowledged without a save
      by_cases hmem : keyPair.publicKey ∈ w.publicKeys
      · have hadd : (addKey crates keyPair).mapErr (.wrap "add key") w = ⟨.ok (), w, []⟩ := by
          rw [Effect.mapErr_apply, addKey_of_mem hmem]
          rfl
        rw [Effect.bind_of_ok hadd, if_pos hmem]
        rfl
      · rw [if_neg hmem]
        -- a new key is stored either way; the save decides the reply
        by_cases hsave : w.SaveOk crates keyPair
        · have hadd : (addKey crates keyPair).mapErr (.wrap "add key") w =
              ⟨.ok (), w.store crates keyPair, [.save true]⟩ := by
            rw [Effect.mapErr_apply, addKey_of_notMem hmem]
            simp only [hsave, decide_true]
            rw [World.SaveOk] at hsave
            rw [hsave]
            rfl
          rw [Effect.bind_of_ok hadd, if_pos hsave]
          rfl
        -- a save that does not succeed returns an error, since it cannot panic
        · obtain ⟨e, he⟩ : ∃ e, (w.saved crates keyPair).1 = .err e := by
            cases hs : (w.saved crates keyPair).1 with
            | ok u => exact absurd hs hsave
            | err e => exact ⟨e, rfl⟩
            | panic => exact absurd hs (Config.save_ne_panic _ _ _ _)
          have hadd : (addKey crates keyPair).mapErr (.wrap "add key") w =
              ⟨.err (.wrap "add key" (.wrap "save config" e)), w.store crates keyPair,
                [.save false]⟩ := by
            rw [Effect.mapErr_apply, addKey_of_notMem hmem]
            simp only [hsave, decide_false, he]
            rfl
          rw [Effect.bind_of_err hadd, if_neg hsave]
          rfl

/-- What `respond` does for a `SIGN_REQUEST` once its fields are read. -/
def signFor (crates : Crates) (info : RequestInfo) (pubKey : PublicKey) (msg : Bytes)
    (flags : Nat) : Act Bytes := do
  let config ← getConfig
  let (keyPair, _) ← Effect.lift (.ofOption (.new "key not found") (getKey config pubKey))
  if ← askConfirmation keyPair info then do
    let sig ← (callSign crates keyPair.privateKey msg flags).mapErr (.wrap "sign")
    pure (sshAgentSignResponse :: writeString sig)
  else
    pure [sshAgentFailure]

theorem failErr_signFor (crates : Crates) (info : RequestInfo) (publicKey : PublicKey)
    (msg : Bytes) (flags : Nat) (w : World) :
    failErr (signFor crates info publicKey msg flags w) =
      perform crates info w (.signRequest publicKey msg flags) := by
  have hconfig : getConfig w = ⟨.ok w.config, w, []⟩ := rfl
  rw [signFor, perform, Effect.bind_of_ok hconfig, Effect.lift_bind_apply]
  cases hget : getKey w.config publicKey with
  | none => rfl
  | some entry =>
  rcases entry with ⟨keyPair, idx⟩
  simp only [Outcome.ofOption_some]
  have hask : askConfirmation keyPair info w =
      ⟨.ok w.confirms.head, w.asked, [.confirm keyPair info w.confirms.head]⟩ := rfl
  rw [Effect.bind_of_ok hask]
  cases hyes : w.confirms.head with
  | false => rfl
  | true =>
  simp only [if_true]
  cases hsign : keyPair.privateKey.sign crates.toOpenssl msg flags with
  | panic => exact absurd hsign (PrivateKey.sign_ne_panic _ _ _ _)
  | ok sig =>
      have hcall : (callSign crates keyPair.privateKey msg flags).mapErr (.wrap "sign") w.asked =
          ⟨.ok sig, w.asked, [.sign keyPair.privateKey msg flags (some sig)]⟩ := by
        rw [Effect.mapErr_apply, callSign, hsign]
        rfl
      rw [Effect.bind_of_ok hcall]
      rfl
  | err e =>
      have hcall : (callSign crates keyPair.privateKey msg flags).mapErr (.wrap "sign") w.asked =
          ⟨.err (.wrap "sign" e), w.asked, [.sign keyPair.privateKey msg flags none]⟩ := by
        rw [Effect.mapErr_apply, callSign, hsign]
        rfl
      rw [Effect.bind_of_err hcall]
      rfl

theorem failErr_respond_sign (crates : Crates) (req : Bytes) (info : RequestInfo) (w : World) :
    failErr (respond crates sshAgentcSignRequest req info w) =
      handled crates info w (sshAgentcSignRequest :: req) := by
  have hne : sshAgentcSignRequest ≠ sshAgentcRequestIdentities := by decide
  have hne' : sshAgentcSignRequest ≠ sshAgentcAddIdentity := by decide
  rw [respond, if_neg hne, if_neg hne', if_pos rfl, handled, Command.parse, readU8,
    Outcome.ok_bind]
  simp only [if_neg hne, if_neg hne', if_pos]
  -- the reads one after the other, each of which may end the request; both sides make the same ones
  rw [Effect.lift_bind_apply]
  cases hblob : readString req with
  | err e => rfl
  | panic => exact absurd hblob (readString_ne_panic req)
  | ok p =>
  rcases p with ⟨blob, req₁⟩
  simp only [Outcome.ok_bind]
  rw [Effect.lift_bind_apply]
  cases hkey : PublicKey.decode blob with
  | err e => rfl
  | panic => rfl
  | ok publicKey =>
  simp only [Outcome.mapErr_ok, Outcome.ok_bind]
  rw [Effect.lift_bind_apply]
  cases hmsg : readString req₁ with
  | err e => rfl
  | panic => exact absurd hmsg (readString_ne_panic req₁)
  | ok p =>
  rcases p with ⟨msg, req₂⟩
  simp only [Outcome.mapErr_ok, Outcome.ok_bind]
  rw [Effect.lift_bind_apply]
  cases hflags : readU32 req₂ with
  | err e => rfl
  | panic => exact absurd hflags (readU32_ne_panic req₂)
  | ok p =>
  rcases p with ⟨flags, rest⟩
  -- the request is complete: the lookup, the dialog and the signature follow
  exact failErr_signFor crates info publicKey msg flags w

theorem handleRequest_eq_failErr (crates : Crates) (buf : Bytes) (info : RequestInfo) (w : World) :
    handleRequest crates buf info w =
      Effect.after [.request w.config.keys buf info]
        (failErr (handleRequestInternal crates buf info w)) := by
  rw [handleRequest]
  rcases handleRequestInternal crates buf info w with ⟨outcome, w', events⟩
  cases outcome <;> rfl

theorem failErr_handleRequestInternal (crates : Crates) (buf : Bytes) (info : RequestInfo)
    (w : World) :
    failErr (handleRequestInternal crates buf info w) = handled crates info w buf := by
  rw [handleRequestInternal, Effect.lift_bind_apply]
  cases buf with
  | nil => rfl
  | cons msgType req =>
  simp only [readU8, Outcome.mapErr_ok]
  rw [failErr_mapErr]
  -- one case for each message type the agent knows, and one for the rest
  by_cases hlist : msgType = sshAgentcRequestIdentities
  · subst hlist
    exact failErr_respond_identities crates req info w
  by_cases hadd : msgType = sshAgentcAddIdentity
  · subst hadd
    rw [failErr_respond_add, handled]
    show _ = match (KeyPair.fromWire req >>= fun p => pure (.addIdentity p.1)) with
      | .ok command => perform crates info w command
      | .err _ => ⟨.ok [sshAgentFailure], w, []⟩
      | .panic => ⟨.panic, w, []⟩
    cases KeyPair.fromWire req <;> rfl
  by_cases hsign : msgType = sshAgentcSignRequest
  · subst hsign
    exact failErr_respond_sign crates req info w
  · have hother : respond crates msgType req info w = ⟨.ok [sshAgentFailure], w, []⟩ := by
      rw [respond, if_neg hlist, if_neg hadd, if_neg hsign]
      rfl
    have hparse : Command.parse (msgType :: req) = .err (.new "unknown message type") := by
      rw [Command.parse, readU8, Outcome.ok_bind]
      simp only [if_neg hlist, if_neg hadd, if_neg hsign]
    rw [hother, handled, hparse]
    rfl

/-- **Refinement.** Handling a request is doing what its command asks for. -/
theorem handleRequest_eq (crates : Crates) (buf : Bytes) (info : RequestInfo) (w : World) :
    handleRequest crates buf info w =
      Effect.after [.request w.config.keys buf info] (handled crates info w buf) := by
  rw [handleRequest_eq_failErr, failErr_handleRequestInternal]

end Agent

end SshKeys
