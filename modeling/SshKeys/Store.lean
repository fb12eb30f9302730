import SshKeys.Command
import SshKeys.Reference
import SshKeys.Lib.FirstWins
import SshKeys.Lib.Transition

/-!
# The key list over requests and runs

What handling a request does to the agent's key list, and what any sequence of requests does to it.
Only an `ADD_IDENTITY` request that parses changes the list, and it appends its key pair unless the
public key is there (`keys_handled`), whether or not the save succeeds. So the list after a run is
the first list followed by the first occurrences of the new keys (`run_config_keys`).

A failure reply does not always mean that nothing happened: the key pair is appended before the
save, and the reply is a failure if the save fails. `failure_keeps_keys_iff` is the exact condition.
-/

set_option autoImplicit false

namespace SshKeys

open Lib Lib.FirstWins

/-- The key pair that an `ADD_IDENTITY` request carries, if it parses. -/
def addedBy (buf : Bytes) : Option KeyPair :=
  match Command.parse buf with
  | .ok (.addIdentity keyPair) => some keyPair
  | _ => none

theorem addedBy_eq_some_iff {buf : Bytes} {keyPair : KeyPair} :
    addedBy buf = some keyPair ↔ Command.parse buf = .ok (.addIdentity keyPair) := by
  rw [addedBy]
  constructor
  · intro h
    split at h
    · next command hparse => rw [hparse, Option.some.inj h]
    · cases h
  · intro h
    rw [h]

/-- The reply, or the panic, of a request is that of its command. -/
theorem outcome_handleRequest (crates : Crates) (buf : Bytes) (info : RequestInfo) (w : World) :
    (Agent.handleRequest crates buf info w).outcome = (handled crates info w buf).outcome := by
  rw [Agent.handleRequest_eq]
  rfl

theorem world_handleRequest (crates : Crates) (buf : Bytes) (info : RequestInfo) (w : World) :
    (Agent.handleRequest crates buf info w).world = (handled crates info w buf).world := by
  rw [Agent.handleRequest_eq]
  rfl

/-- A confirmation or a signature. -/
def Event.OfSigning : Event → Prop
  | .confirm _ _ _ => True
  | .sign _ _ _ _ => True
  | _ => False

/-- Neither the list nor the file is touched, and nothing is saved. -/
structure Untouched (w : World) (r : Ran World Event Error Bytes) : Prop where
  config : r.world.config = w.config
  file : r.world.file = w.file
  events : ∀ event ∈ r.events, event.OfSigning

theorem not_mem_of_signing {events : List Event} (h : ∀ event ∈ events, event.OfSigning)
    (ok : Bool) : Event.save ok ∉ events :=
  fun hmem => absurd (h _ hmem) not_false

theorem perform_signRequest_untouched (crates : Crates) (info : RequestInfo) (w : World)
    (publicKey : PublicKey) (msg : Bytes) (flags : Nat) :
    Untouched w (perform crates info w (.signRequest publicKey msg flags)) := by
  have hsigning := signing_perform crates info w publicKey msg flags
  generalize perform crates info w (.signRequest publicKey msg flags) = r at hsigning ⊢
  cases hsigning with
  | unknown hget => exact ⟨rfl, rfl, by simp⟩
  | refused hget hyes => exact ⟨rfl, rfl, by simp [Event.OfSigning]⟩
  | failed hget hyes hsign => exact ⟨rfl, rfl, by simp [Event.OfSigning]⟩
  | signed hget hyes hsign => exact ⟨rfl, rfl, by simp [Event.OfSigning]⟩

theorem handled_of_addedBy {crates : Crates} {info : RequestInfo} {w : World} {buf : Bytes}
    {keyPair : KeyPair} (h : addedBy buf = some keyPair) :
    handled crates info w buf = perform crates info w (.addIdentity keyPair) := by
  rw [handled, addedBy_eq_some_iff.1 h]

/-- The addition of a new key is stored and saved. -/
theorem handled_of_new {crates : Crates} {info : RequestInfo} {w : World} {buf : Bytes}
    {keyPair : KeyPair} (hadd : addedBy buf = some keyPair)
    (hnew : keyPair.publicKey ∉ w.publicKeys) :
    handled crates info w buf =
      ⟨.ok [if w.SaveOk crates keyPair then sshAgentSuccess else sshAgentFailure],
        w.store crates keyPair, [.save (w.SaveOk crates keyPair)]⟩ := by
  rw [handled_of_addedBy hadd, perform, if_neg hnew]
  by_cases hsave : w.SaveOk crates keyPair
  · simp [hsave]
  · simp [hsave]

/-- The addition of a key that is in the list is acknowledged. -/
theorem handled_of_present {crates : Crates} {info : RequestInfo} {w : World} {buf : Bytes}
    {keyPair : KeyPair} (hadd : addedBy buf = some keyPair)
    (hmem : keyPair.publicKey ∈ w.publicKeys) :
    handled crates info w buf = ⟨.ok [sshAgentSuccess], w, []⟩ := by
  rw [handled_of_addedBy hadd, perform, if_pos hmem]

/-- Every other request leaves the list and the file alone. -/
theorem handled_untouched {crates : Crates} {info : RequestInfo} {w : World} {buf : Bytes}
    (h : ∀ keyPair, addedBy buf = some keyPair → keyPair.publicKey ∈ w.publicKeys) :
    Untouched w (handled crates info w buf) := by
  -- an addition of a key in the list is left; it is acknowledged without a change
  cases hadd : addedBy buf with
  | some keyPair =>
      rw [handled_of_present hadd (h keyPair hadd)]
      exact ⟨rfl, rfl, by simp⟩
  | none =>
      rw [addedBy] at hadd
      rw [handled]
      cases hparse : Command.parse buf with
      | err e => exact ⟨rfl, rfl, by simp⟩
      | panic => exact ⟨rfl, rfl, by simp⟩
      | ok command =>
          cases command with
          | requestIdentities => exact ⟨rfl, rfl, by simp [perform]⟩
          | signRequest publicKey msg flags =>
              exact perform_signRequest_untouched crates info w publicKey msg flags
          | addIdentity keyPair => simp [hparse] at hadd

/-- A request either stores a new key or touches nothing. -/
theorem stores_or_untouched (crates : Crates) (info : RequestInfo) (w : World) (buf : Bytes) :
    (∃ keyPair, addedBy buf = some keyPair ∧ keyPair.publicKey ∉ w.publicKeys) ∨
      (∀ keyPair, addedBy buf = some keyPair → keyPair.publicKey ∈ w.publicKeys) ∧
        Untouched w (handled crates info w buf) := by
  by_cases h : ∃ keyPair, addedBy buf = some keyPair ∧ keyPair.publicKey ∉ w.publicKeys
  · exact Or.inl h
  · have hpresent : ∀ keyPair, addedBy buf = some keyPair → keyPair.publicKey ∈ w.publicKeys := by
      intro keyPair hadd
      by_contra hnew
      exact h ⟨keyPair, hadd, hnew⟩
    exact Or.inr ⟨hpresent, handled_untouched hpresent⟩

/-- What is left by a request that is answered: a new key is stored, and acknowledged if the save
succeeds, or list and file are as they were, and an addition is acknowledged. -/
theorem answered_stores_or_untouched {crates : Crates} {info : RequestInfo} {w w' : World}
    {buf reply : Bytes} {events : List Event}
    (h : Agent.handleRequest crates buf info w = ⟨.ok reply, w', events⟩) :
    (∃ keyPair, addedBy buf = some keyPair ∧ keyPair.publicKey ∉ w.publicKeys ∧
      reply = [if w.SaveOk crates keyPair then sshAgentSuccess else sshAgentFailure] ∧
      w' = w.store crates keyPair ∧
      ∀ ok, .save ok ∈ events ↔ ok = decide (w.SaveOk crates keyPair)) ∨
    (∀ keyPair, addedBy buf = some keyPair →
      keyPair.publicKey ∈ w.publicKeys ∧ reply = [sshAgentSuccess]) ∧
      w'.config = w.config ∧ w'.file = w.file ∧ ∀ ok, .save ok ∉ events := by
  rw [Agent.handleRequest_eq, Effect.after] at h
  rcases stores_or_untouched crates info w buf with ⟨keyPair, hadd, hnew⟩ | ⟨hpresent, hsame⟩
  · rw [handled_of_new hadd hnew, Ran.mk.injEq] at h
    obtain ⟨hreply, hworld, rfl⟩ := h
    rw [Outcome.ok.injEq] at hreply
    exact Or.inl ⟨keyPair, hadd, hnew, hreply.symm, hworld.symm, by simp⟩
  · have hack : ∀ keyPair, addedBy buf = some keyPair →
        keyPair.publicKey ∈ w.publicKeys ∧ reply = [sshAgentSuccess] := by
      intro keyPair hadd
      have hmem := hpresent keyPair hadd
      rw [handled_of_present hadd hmem, Ran.mk.injEq, Outcome.ok.injEq] at h
      exact ⟨hmem, h.1.symm⟩
    generalize handled crates info w buf = r at h hsame
    rcases r with ⟨outcome, w'', events'⟩
    rw [Ran.mk.injEq] at h
    obtain ⟨-, rfl, rfl⟩ := h
    exact Or.inr ⟨hack, hsame.config, hsame.file, by simp [not_mem_of_signing hsame.events]⟩

/-- The same for a request none of whose saves failed. -/
theorem saves_or_untouched {crates : Crates} {info : RequestInfo} {w w' : World}
    {buf reply : Bytes} {events : List Event}
    (h : Agent.handleRequest crates buf info w = ⟨.ok reply, w', events⟩)
    (hsaves : .save false ∉ events) :
    (∃ keyPair, addedBy buf = some keyPair ∧ keyPair.publicKey ∉ w.publicKeys ∧
      w.SaveOk crates keyPair ∧ reply = [sshAgentSuccess] ∧ w' = w.store crates keyPair ∧
      .save true ∈ events) ∨
    (∀ keyPair, addedBy buf = some keyPair → keyPair.publicKey ∈ w.publicKeys) ∧
      w'.config = w.config ∧ w'.file = w.file ∧ .save true ∉ events := by
  rcases answered_stores_or_untouched h with ⟨keyPair, hadd, hnew, hreply, hworld, hevents⟩ |
    ⟨hack, hconfig, hfile, hevents⟩
  · have hsave : w.SaveOk crates keyPair := by
      by_contra hfail
      exact hsaves ((hevents false).2 (decide_eq_false hfail).symm)
    rw [if_pos hsave] at hreply
    exact Or.inl ⟨keyPair, hadd, hnew, hsave, hreply, hworld,
      (hevents true).2 (decide_eq_true hsave).symm⟩
  · exact Or.inr ⟨fun keyPair hadd => (hack keyPair hadd).1, hconfig, hfile, hevents true⟩

/-- **One request.** The list after a request is the list before, with the key pair of an addition
appended unless its public key was there. -/
theorem keys_handled (crates : Crates) (info : RequestInfo) (w : World) (buf : Bytes) :
    (handled crates info w buf).world.config.keys =
      (addedBy buf).toList.foldl (insertNew KeyPair.publicKey) w.config.keys := by
  rcases stores_or_untouched crates info w buf with ⟨keyPair, hadd, hnew⟩ | ⟨hpresent, h⟩
  · rw [handled_of_new hadd hnew, hadd]
    exact (insertNew_of_notMem hnew).symm
  · rw [h.config]
    cases hadd : addedBy buf with
    | none => rfl
    | some keyPair => exact (insertNew_of_mem (hpresent keyPair hadd)).symm

/-! ## Failure replies -/

/-- The request adds a key that is not in the list, and the save of the list with it fails. -/
def UnsavedAddition (crates : Crates) (w : World) (buf : Bytes) : Prop :=
  ∃ keyPair, addedBy buf = some keyPair ∧ keyPair.publicKey ∉ w.publicKeys ∧
    ¬ w.SaveOk crates keyPair

/-- A request answered with a failure leaves the key list as it was. -/
def FailureKeepsKeys (crates : Crates) (w : World) (buf : Bytes) (info : RequestInfo) : Prop :=
  (Agent.handleRequest crates buf info w).outcome = .ok [sshAgentFailure] →
    (Agent.handleRequest crates buf info w).world.config.keys = w.config.keys

/-- **Failed requests and the store.** A failure reply leaves the key list as it was exactly when
the request is not an addition of a new key whose save fails. -/
theorem failure_keeps_keys_iff (crates : Crates) (w : World) (buf : Bytes) (info : RequestInfo) :
    FailureKeepsKeys crates w buf info ↔ ¬ UnsavedAddition crates w buf := by
  rw [FailureKeepsKeys, outcome_handleRequest, world_handleRequest]
  rcases stores_or_untouched crates info w buf with ⟨keyPair, hadd, hnew⟩ | ⟨hpresent, h⟩
  · have hunsaved : UnsavedAddition crates w buf ↔ ¬ w.SaveOk crates keyPair := by
      constructor
      · rintro ⟨keyPair', hadd', -, hfail⟩
        rw [hadd, Option.some.injEq] at hadd'
        rwa [hadd']
      · exact fun hfail => ⟨keyPair, hadd, hnew, hfail⟩
    -- the list with the new key is longer, so only the reply decides
    have hkeys : (w.store crates keyPair).config.keys ≠ w.config.keys := by simp [World.store]
    rw [hunsaved, handled_of_new hadd hnew]
    by_cases hsave : w.SaveOk crates keyPair
    · simp [hsave, sshAgentSuccess, sshAgentFailure]
    · simp [hsave, hkeys]
  · refine ⟨fun _ => ?_, fun _ _ => by rw [h.config]⟩
    rintro ⟨keyPair, hadd, hnew, -⟩
    exact hnew (hpresent keyPair hadd)

/-- The numbers of a small RSA key: `n = 11 * 3`. -/
def smallKey : RsaFields := { n := 33, e := 3, d := 7, iqmp := 4, p := 11, q := 3 }

/-- An agent without keys whose saves all meet `fault`, and a user who answers `answer`. -/
def emptyWorld (answer : Bool) (fault : SaveFault) : World where
  config := Config.default
  file := none
  confirms := Stream'.const answer
  saves := Stream'.const fault

/-- The key pair stays in the list although the reply is a failure. -/
theorem failed_add_stays :
    ¬ FailureKeepsKeys Reference.crates (emptyWorld true .create)
      (addIdentityRequest smallKey "k") { channel := "Pipe", requester := none } := by
  intro h
  have hkeys := h (by decide)
  exact absurd hkeys (by decide)

/-- The key pair of an addition of `f`. -/
def smallPair (f : RsaFields) (name : String) : KeyPair :=
  KeyPair.new (.rsa (Rsa.fromPrivateComponents f.n f.e f.d f.p f.q (f.d.mod (f.p.val - 1))
    (f.d.mod (f.q.val - 1)) f.iqmp)) name

/-- The encoding of the public key of `smallKey`. -/
def smallBlob : Bytes :=
  writeString (utf8 "ssh-rsa") ++ writeString [3] ++ writeString [33]

/-- An agent with `keys` whose saves succeed, and a user who always agrees. -/
def holding (keys : List KeyPair) : World := { emptyWorld true .none with config := { keys } }

/-! ## Runs -/

/-- A request as it reaches the agent: its bytes, and what is known about the client. -/
structure Call where
  info : RequestInfo
  buf : Bytes
  deriving DecidableEq

/-- The agent under its mutex, one request after the other, as long as handling returns. -/
def agentMachine (crates : Crates) : Machine World Call where
  step w call :=
    match Agent.handleRequest crates call.buf call.info w with
    | ⟨.ok _, w', _⟩ => some w'
    | _ => none

theorem agentMachine_step_eq_some {crates : Crates} {w w' : World} {call : Call}
    (h : (agentMachine crates).step w call = some w') :
    w' = (handled crates call.info w call.buf).world := by
  rw [← world_handleRequest]
  simp only [agentMachine] at h
  split at h
  · next hreq =>
      rw [hreq]
      exact (Option.some.inj h).symm
  · cases h

theorem agentMachine_step_of_ok {crates : Crates} {w : World} {call : Call} {reply : Bytes}
    (h : (handled crates call.info w call.buf).outcome = .ok reply) :
    (agentMachine crates).step w call = some (handled crates call.info w call.buf).world := by
  rw [← outcome_handleRequest] at h
  rw [← world_handleRequest]
  simp only [agentMachine]
  rcases hreq : Agent.handleRequest crates call.buf call.info w with ⟨outcome, w', events⟩
  rw [hreq] at h
  subst h
  rfl

/-- The key pairs of the additions that parse, in the order of the requests. -/
def additions (calls : List Call) : List KeyPair := calls.filterMap fun call => addedBy call.buf

theorem run_config_keys_foldl {crates : Crates} {calls : List Call} {w w' : World}
    (h : (agentMachine crates).run w calls = some w') :
    w'.config.keys = (additions calls).foldl (insertNew KeyPair.publicKey) w.config.keys := by
  induction calls generalizing w with
  | nil =>
      rw [← Option.some.inj h]
      rfl
  | cons call calls ih =>
      -- the first request adds at most one key pair, and the rest go on from there
      obtain ⟨w₁, hstep, hrun⟩ := Machine.run_cons_eq_some h
      have hkeys : w₁.config.keys =
          (addedBy call.buf).toList.foldl (insertNew KeyPair.publicKey) w.config.keys := by
        rw [agentMachine_step_eq_some hstep, keys_handled]
      rw [ih hrun, hkeys, ← List.foldl_append]
      congr 1
      rw [additions, additions, List.filterMap_cons]
      cases addedBy call.buf <;> rfl

/-- **Store evolution.** The list after a run is the first list followed by the first occurrence of
every added public key that was not in it, in the order of the requests. Two runs from the same
list with the same additions in any two orders end with the same set of public keys. -/
theorem run_config_keys (crates : Crates) (w : World) (calls : List Call) :
    (∀ w', (agentMachine crates).run w calls = some w' →
      w'.config.keys = w.config.keys ++ keepFirst KeyPair.publicKey
        ((additions calls).filter fun keyPair =>
          decide (keyPair.publicKey ∉ w.publicKeys))) ∧
    (∀ w' v v' calls', v.config = w.config → (additions calls).Perm (additions calls') →
      (agentMachine crates).run w calls = some w' →
      (agentMachine crates).run v calls' = some v' →
      ∀ k, k ∈ w'.publicKeys ↔ k ∈ v'.publicKeys) := by
  constructor
  · intro w' h
    rw [run_config_keys_foldl h]
    exact foldl_insertNew (additions calls) w.config.keys
  · intro w' v v' calls' hconfig hperm h h' k
    rw [World.publicKeys, World.publicKeys, run_config_keys_foldl h, run_config_keys_foldl h',
      hconfig]
    exact mem_keys_foldl_insertNew_of_perm hperm

/-- Two keys with the second sent first and again last, and the same two in the other order. -/
theorem run_config_keys_small :
    ∃ w' v', (agentMachine Reference.crates).run (emptyWorld true .none)
        [⟨⟨"Pipe", none⟩, addIdentityRequest { smallKey with e := 7 } "b"⟩,
          ⟨⟨"Unix", none⟩, addIdentityRequest smallKey "a"⟩,
          ⟨⟨"Pipe", none⟩, addIdentityRequest { smallKey with e := 7 } "c"⟩] = some w' ∧
      (agentMachine Reference.crates).run (emptyWorld true .none)
        [⟨⟨"Unix", none⟩, addIdentityRequest smallKey "a"⟩,
          ⟨⟨"Pipe", none⟩, addIdentityRequest { smallKey with e := 7 } "c"⟩,
          ⟨⟨"Pipe", none⟩, addIdentityRequest { smallKey with e := 7 } "b"⟩] = some v' ∧
      w'.config.keys.map KeyPair.name = ["b", "a"] ∧
      ∀ k, k ∈ w'.publicKeys ↔ k ∈ v'.publicKeys := by
  obtain ⟨w', hw'⟩ := Option.isSome_iff_exists.1
    (show ((agentMachine Reference.crates).run (emptyWorld true .none)
      [⟨⟨"Pipe", none⟩, addIdentityRequest { smallKey with e := 7 } "b"⟩,
        ⟨⟨"Unix", none⟩, addIdentityRequest smallKey "a"⟩,
        ⟨⟨"Pipe", none⟩, addIdentityRequest { smallKey with e := 7 } "c"⟩]).isSome = true by
      decide +kernel)
  obtain ⟨v', hv'⟩ := Option.isSome_iff_exists.1
    (show ((agentMachine Reference.crates).run (emptyWorld true .none)
      [⟨⟨"Unix", none⟩, addIdentityRequest smallKey "a"⟩,
        ⟨⟨"Pipe", none⟩, addIdentityRequest { smallKey with e := 7 } "c"⟩,
        ⟨⟨"Pipe", none⟩, addIdentityRequest { smallKey with e := 7 } "b"⟩]).isSome = true by
      decide +kernel)
  have h := run_config_keys Reference.crates (emptyWorld true .none)
  refine ⟨w', v', hw', hv', ?_, (h _).2 w' _ v' _ rfl (by decide +kernel) hw' hv'⟩
  rw [(h _).1 w' hw']
  decide +kernel

end SshKeys
