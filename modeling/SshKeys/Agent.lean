import SshKeys.Config
import Mathlib.Data.Stream.Defs

/-!
# The agent

Handling of one request, after `agent/mod.rs`. The agent is its configuration. The world around it
has the configuration file, the answers the user will give in the confirmation dialogs, and the
fates of the coming saves; the latter two are streams, consumed in order (`World`). What the agent
does to the outside is recorded as events: a request handed to the agent together with the key list
it meets, a confirmation with its answer, a call of `PrivateKey::sign` with its result, and a save.

`Agent.handleRequest` ends with a reply or with a panic; every error becomes the reply
`SSH_AGENT_FAILURE`.
-/

set_option autoImplicit false

namespace SshKeys

open Lib

/-- The message types of the requests. -/
def sshAgentcRequestIdentities : UInt8 := 11
def sshAgentcSignRequest : UInt8 := 13
def sshAgentcAddIdentity : UInt8 := 17

/-- The message types of the replies. -/
def sshAgentFailure : UInt8 := 5
def sshAgentSuccess : UInt8 := 6
def sshAgentIdentitiesAnswer : UInt8 := 12
def sshAgentSignResponse : UInt8 := 14

/-- What the dialog says about the process that asks. -/
structure RequesterInfo where
  descriptionShort : String
  descriptionLong : String
  deriving DecidableEq

/-- The channel of a request, and its requester where one was found. -/
structure RequestInfo where
  channel : String
  requester : Option RequesterInfo
  deriving DecidableEq

/-- The agent's configuration with what is outside the agent. -/
structure World where
  config : Config
  file : Option Bytes
  confirms : Stream' Bool
  saves : Stream' SaveFault

/-- What can be seen of the agent from outside. -/
inductive Event where
  /-- `handle_request` is called while the agent holds `keys`. -/
  | request (keys : List KeyPair) (buf : Bytes) (info : RequestInfo)
  /-- `ask_confirmation` showed a dialog and returned `answer`. -/
  | confirm (keyPair : KeyPair) (info : RequestInfo) (answer : Bool)
  /-- `PrivateKey::sign` was called; `sig` is what it returned, if it did. -/
  | sign (key : PrivateKey) (msg : Bytes) (flags : Nat) (sig : Option Bytes)
  | save (ok : Bool)
  /-- A reply is written to the client. -/
  | reply (resp : Bytes)
  deriving DecidableEq

/-- Code of the agent. -/
abbrev Act := Effect World Event Error

/-- `self.config` -/
def getConfig : Act Config := fun w => ⟨.ok w.config, w, []⟩

/-- `self.config.keys.push` -/
def pushKey (keyPair : KeyPair) : Act Unit := fun w =>
  ⟨.ok (), { w with config := { keys := w.config.keys ++ [keyPair] } }, []⟩

/-- `self.config.save()` -/
def saveConfig (crates : Crates) : Act Unit := fun w =>
  let saved := w.config.save crates w.saves.head w.file
  ⟨saved.1, { w with file := saved.2, saves := w.saves.tail }, [.save (saved.1 = .ok ())]⟩

/-- `ask_confirmation`, which waits for the user. -/
def askConfirmation (keyPair : KeyPair) (info : RequestInfo) : Act Bool := fun w =>
  ⟨.ok w.confirms.head, { w with confirms := w.confirms.tail },
    [.confirm keyPair info w.confirms.head]⟩

/-- `key.sign(msg, flags)` -/
def callSign (crates : Crates) (key : PrivateKey) (msg : Bytes) (flags : Nat) : Act Bytes :=
  fun w =>
    let signed := key.sign crates.toOpenssl msg flags
    ⟨signed, w, [.sign key msg flags signed.toOption]⟩

namespace Agent

/-- The first key pair with the public key, and its index. -/
def getKey (config : Config) (publicKey : PublicKey) : Option (KeyPair × Nat) :=
  config.keys.zipIdx.find? fun entry => entry.1.publicKey.eq publicKey

/-- The list gets the key, and the file the list, unless the public key is there already. -/
def addKey (crates : Crates) (keyPair : KeyPair) : Act Unit := do
  let config ← getConfig
  match getKey config keyPair.publicKey with
  | none => do
      -- nothing takes the key pair out again if the save fails
      pushKey keyPair
      (saveConfig crates).mapErr (.wrap "save config")
  | some _ => pure ()

/-- The loop over the key pairs of a listing. -/
def writeIdentities : List KeyPair → Outcome Error Bytes
  | [] => pure []
  | keyPair :: keys => do
      let blob ← keyPair.publicKey.encode
      let rest ← writeIdentities keys
      pure (writeString blob ++ writeString (utf8 keyPair.name) ++ rest)

/-- The closure in `handle_request_internal`: the response to the request after its first byte. -/
def respond (crates : Crates) (msgType : UInt8) (req : Bytes) (info : RequestInfo) : Act Bytes :=
  if msgType = sshAgentcRequestIdentities then do
    let config ← getConfig
    let entries ← Effect.lift (writeIdentities config.keys)
    pure (sshAgentIdentitiesAnswer :: (writeU32 (config.keys.length % 2 ^ 32) ++ entries))
  else if msgType = sshAgentcAddIdentity then do
    let (keyPair, _) ← Effect.lift ((KeyPair.fromWire req).mapErr (.wrap "read key_pair"))
    (addKey crates keyPair).mapErr (.wrap "add key")
    pure [sshAgentSuccess]
  else if msgType = sshAgentcSignRequest then do
    let (blob, req) ← Effect.lift (readString req)
    let pubKey ← Effect.lift ((PublicKey.decode blob).mapErr (.wrap "read public key"))
    let (msg, req) ← Effect.lift ((readString req).mapErr (.wrap "read msg"))
    let (flags, _) ← Effect.lift ((readU32 req).mapErr (.wrap "read flags"))
    let config ← getConfig
    let (keyPair, _) ← Effect.lift (.ofOption (.new "key not found") (getKey config pubKey))
    -- the agent is locked while the user decides
    if ← askConfirmation keyPair info then do
      let sig ← (callSign crates keyPair.privateKey msg flags).mapErr (.wrap "sign")
      pure (sshAgentSignResponse :: writeString sig)
    else
      pure [sshAgentFailure]
  else
    pure [sshAgentFailure]

/-- The type of the message is read here, and everything else by the branch for this type. -/
def handleRequestInternal (crates : Crates) (buf : Bytes) (info : RequestInfo) : Act Bytes := do
  let (msgType, req) ← Effect.lift ((readU8 buf).mapErr (.wrap "read msg_type"))
  (respond crates msgType req info).mapErr (.wrap s!"msg_type={msgType}")

/-- Every error becomes the reply `SSH_AGENT_FAILURE`. What the request did before it failed
stays. -/
def handleRequest (crates : Crates) (buf : Bytes) (info : RequestInfo) : Act Bytes := fun w =>
  match handleRequestInternal crates buf info w with
  | ⟨.err _, w', events⟩ => ⟨.ok [sshAgentFailure], w', .request w.config.keys buf info :: events⟩
  | ⟨outcome, w', events⟩ => ⟨outcome, w', .request w.config.keys buf info :: events⟩

/-! ## The key lookup -/

theorem find?_zipIdx_eq_none_iff {α : Type} {p : α → Bool} {l : List α} {n : Nat} :
    (l.zipIdx n).find? (fun entry => p entry.1) = none ↔ ∀ a ∈ l, p a = false := by
  induction l generalizing n with
  | nil => simp
  | cons a l ih =>
      rw [List.zipIdx_cons, List.find?_cons]
      cases ha : p a with
      | true => simp [ha]
      | false => simp [ha, ih]

theorem find?_zipIdx_eq_some_iff {α : Type} {p : α → Bool} {l : List α} {n i : Nat} {a : α} :
    (l.zipIdx n).find? (fun entry => p entry.1) = some (a, i) ↔
      ∃ pre post, l = pre ++ a :: post ∧ i = n + pre.length ∧ p a = true ∧
        ∀ b ∈ pre, p b = false := by
  induction l generalizing n with
  | nil => simp
  | cons b l ih =>
      rw [List.zipIdx_cons, List.find?_cons]
      cases hb : p b with
      | true =>
          simp only [Option.some.injEq, Prod.mk.injEq]
          constructor
          · rintro ⟨rfl, rfl⟩
            exact ⟨[], l, rfl, rfl, hb, by simp⟩
          · rintro ⟨pre, post, hl, hi, -, hpre⟩
            cases pre with
            | nil =>
                simp only [List.nil_append, List.cons.injEq] at hl
                exact ⟨hl.1, hi.symm⟩
            | cons c pre =>
                simp only [List.cons_append, List.cons.injEq] at hl
                have hc := hpre c List.mem_cons_self
                rw [← hl.1, hb] at hc
                cases hc
      | false =>
          simp only [ih]
          constructor
          · rintro ⟨pre, post, rfl, rfl, ha, hpre⟩
            refine ⟨b :: pre, post, rfl, ?_, ha, ?_⟩
            · rw [List.length_cons]
              omega
            · intro c hc
              rcases List.mem_cons.1 hc with rfl | hc
              · exact hb
              · exact hpre c hc
          · rintro ⟨pre, post, hl, hi, ha, hpre⟩
            cases pre with
            | nil =>
                simp only [List.nil_append, List.cons.injEq] at hl
                rw [hl.1, ha] at hb
                cases hb
            | cons c pre =>
                simp only [List.cons_append, List.cons.injEq] at hl
                refine ⟨pre, post, hl.2, ?_, ha, fun d hd => hpre d (List.mem_cons_of_mem _ hd)⟩
                rw [hi, List.length_cons]
                omega

theorem getKey_eq_none_iff {config : Config} {k : PublicKey} :
    getKey config k = none ↔ k ∉ config.keys.map KeyPair.publicKey := by
  have h := find?_zipIdx_eq_none_iff (p := fun keyPair : KeyPair => keyPair.publicKey.eq k)
    (l := config.keys) (n := 0)
  rw [getKey, h]
  simp only [Bool.eq_false_iff, ne_eq, PublicKey.eq_iff, List.mem_map, not_exists, not_and]

/-- The pair found is the first one in the list with the public key. -/
theorem getKey_eq_some_iff {config : Config} {k : PublicKey} {keyPair : KeyPair} {idx : Nat} :
    getKey config k = some (keyPair, idx) ↔
      ∃ pre post, config.keys = pre ++ keyPair :: post ∧ idx = pre.length ∧
        keyPair.publicKey = k ∧ k ∉ pre.map KeyPair.publicKey := by
  have h := find?_zipIdx_eq_some_iff (p := fun keyPair : KeyPair => keyPair.publicKey.eq k)
    (l := config.keys) (n := 0) (i := idx) (a := keyPair)
  rw [getKey, h]
  simp only [Bool.eq_false_iff, ne_eq, PublicKey.eq_iff, List.mem_map, not_exists, not_and,
    Nat.zero_add]

end Agent

end SshKeys
