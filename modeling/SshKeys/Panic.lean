import SshKeys.Store

/-!
# Panics and the poisoned mutex

Which requests make the agent panic. There are three ways: an `ADD_IDENTITY` request with a prime
equal to `1` divides by zero while it is parsed, an `ADD_IDENTITY` or a `SIGN_REQUEST` with an
integer that is too large for OpenSSL fails at an `unwrap` of the parser, and a listing fails on a
stored key whose exponent or modulus is zero, which an earlier addition has put there
(`handled_answered`). A panic poisons the mutex around the agent, and from then on every request of
every client panics at `lock().unwrap()` (`lockAndHandle`). `allAnswered_iff` says exactly which
sequences of requests are all answered.
-/

set_option autoImplicit false

namespace SshKeys

open Lib Lib.FirstWins

/-- The request is an `ADD_IDENTITY` of an RSA key whose six numbers are there, one of the two
primes being `1`. -/
def DividesByZero (buf : Bytes) : Prop :=
  ∃ req f rest, buf = sshAgentcAddIdentity :: req ∧ RsaFields.read req = .ok (f, rest) ∧
    f.ZeroDivisor

/-- The request is an `ADD_IDENTITY` or a `SIGN_REQUEST` of an RSA key, and one of the six or two
integers of the key is there and too large for OpenSSL. -/
def HasOversizedInteger (buf : Bytes) : Prop :=
  (∃ req, buf = sshAgentcAddIdentity :: req ∧ OversizedKey 6 req) ∨
    ∃ blob rest, blob.length < 2 ^ 32 ∧ buf = sshAgentcSignRequest :: (writeString blob ++ rest) ∧
      OversizedKey 2 blob

/-- The request is one that the parser panics at. -/
def Fatal (buf : Bytes) : Prop := DividesByZero buf ∨ HasOversizedInteger buf

theorem fatal_addIdentity_iff {req : Bytes} :
    Fatal (sshAgentcAddIdentity :: req) ↔
      OversizedKey 6 req ∨ ∃ f rest, RsaFields.read req = .ok (f, rest) ∧ f.ZeroDivisor := by
  have hne : sshAgentcAddIdentity ≠ sshAgentcSignRequest := by decide
  simp [Fatal, DividesByZero, HasOversizedInteger, hne, or_comm]

theorem fatal_signRequest_iff {req : Bytes} :
    Fatal (sshAgentcSignRequest :: req) ↔
      ∃ blob rest, readString req = .ok (blob, rest) ∧ OversizedKey 2 blob := by
  have hne : sshAgentcSignRequest ≠ sshAgentcAddIdentity := by decide
  simp [Fatal, DividesByZero, HasOversizedInteger, hne, readString_eq_ok_iff, and_assoc]

/-- **Parsing a request panics** exactly when it divides by zero or has an integer that is too
large. -/
theorem parse_eq_panic_iff {buf : Bytes} : Command.parse buf = .panic ↔ Fatal buf := by
  cases buf with
  | nil => simp [Command.parse, readU8, Fatal, DividesByZero, HasOversizedInteger]
  | cons msgType req =>
  rw [Command.parse, readU8, Outcome.ok_bind]
  simp only
  by_cases hadd : msgType = sshAgentcAddIdentity
  · subst hadd
    have hne : sshAgentcAddIdentity ≠ sshAgentcRequestIdentities := by decide
    rw [if_neg hne, if_pos rfl, Outcome.bind_eq_panic_iff, KeyPair.fromWire_eq_panic_iff,
      fatal_addIdentity_iff]
    simp
  by_cases hsign : msgType = sshAgentcSignRequest
  · subst hsign
    have hne : sshAgentcSignRequest ≠ sshAgentcRequestIdentities := by decide
    rw [if_neg hne, if_neg hadd, if_pos rfl, fatal_signRequest_iff]
    -- of the reads only that of the key may panic
    simp [Outcome.bind_eq_panic_iff, readString_ne_panic, readU32_ne_panic,
      PublicKey.decode_eq_panic_iff]
  -- no other message type is parsed further
  have hnot : ¬ Fatal (msgType :: req) := by
    rintro (⟨req', f, rest, h, -⟩ | ⟨req', h, -⟩ | ⟨blob, rest, -, h, -⟩)
    · exact hadd (List.cons.inj h).1
    · exact hadd (List.cons.inj h).1
    · exact hsign (List.cons.inj h).1
  by_cases hlist : msgType = sshAgentcRequestIdentities
  · rw [if_pos hlist]
    simp [hnot]
  · rw [if_neg hlist, if_neg hadd, if_neg hsign]
    simp [hnot]

theorem parse_eq_requestIdentities_iff {buf : Bytes} :
    Command.parse buf = .ok .requestIdentities ↔
      buf.head? = some sshAgentcRequestIdentities := by
  cases buf with
  | nil => simp [Command.parse, readU8]
  | cons msgType req =>
  rw [Command.parse, readU8, Outcome.ok_bind, List.head?_cons, Option.some.injEq]
  simp only
  by_cases hlist : msgType = sshAgentcRequestIdentities
  · simp [hlist]
  rw [if_neg hlist]
  by_cases hadd : msgType = sshAgentcAddIdentity
  · rw [if_pos hadd]
    simp [hlist, Outcome.bind_eq_ok_iff]
  rw [if_neg hadd]
  by_cases hsign : msgType = sshAgentcSignRequest
  · rw [if_pos hsign]
    simp [hlist, Outcome.bind_eq_ok_iff]
  · rw [if_neg hsign]
    simp [hlist]

/-- The parser does not panic at the request and, if it is a listing, every stored key can be
encoded. -/
def Answerable (w : World) (buf : Bytes) : Prop :=
  ¬ Fatal buf ∧ (buf.head? = some sshAgentcRequestIdentities →
    ∀ keyPair ∈ w.config.keys, keyPair.publicKey.Usable)

/-- A command other than a listing is always answered. -/
theorem exists_perform_eq_ok (crates : Crates) (info : RequestInfo) (w : World)
    {command : Command} (h : command ≠ .requestIdentities) :
    ∃ reply, (perform crates info w command).outcome = .ok reply := by
  cases command with
  | requestIdentities => exact absurd rfl h
  | addIdentity keyPair =>
      have hadding := adding_perform crates info w keyPair
      generalize perform crates info w (.addIdentity keyPair) = r at hadding ⊢
      cases hadding with
      | present hmem => exact ⟨_, rfl⟩
      | saved hnew hsave => exact ⟨_, rfl⟩
      | unsaved hnew hsave => exact ⟨_, rfl⟩
  | signRequest publicKey msg flags =>
      have hsigning := signing_perform crates info w publicKey msg flags
      generalize perform crates info w (.signRequest publicKey msg flags) = r at hsigning ⊢
      cases hsigning with
      | unknown hget => exact ⟨_, rfl⟩
      | refused hget hyes => exact ⟨_, rfl⟩
      | failed hget hyes hsign => exact ⟨_, rfl⟩
      | signed hget hyes hsign => exact ⟨_, rfl⟩

/-- **One request is answered** exactly when it is answerable; otherwise it panics. -/
theorem handled_answered (crates : Crates) (info : RequestInfo) (w : World) (buf : Bytes) :
    (Answerable w buf ∧ ∃ reply, (handled crates info w buf).outcome = .ok reply) ∨
      (¬ Answerable w buf ∧ (handled crates info w buf).outcome = .panic) := by
  rw [handled, Answerable, ← parse_eq_panic_iff, ← parse_eq_requestIdentities_iff]
  cases hparse : Command.parse buf with
  | err e => exact Or.inl ⟨by simp, _, rfl⟩
  | panic => exact Or.inr ⟨by simp, rfl⟩
  | ok command =>
      -- of the commands only a listing can panic
      by_cases hlist : command = .requestIdentities
      · subst hlist
        by_cases hu : ∀ keyPair ∈ w.config.keys, keyPair.publicKey.Usable
        · obtain ⟨out, hout⟩ := exists_identitiesAnswer_eq_ok hu
          exact Or.inl ⟨⟨by simp, fun _ => hu⟩, _, hout⟩
        · have hex : ∃ keyPair ∈ w.config.keys, ¬ keyPair.publicKey.Usable := by
            simpa using hu
          exact Or.inr ⟨fun h => hu (h.2 rfl), identitiesAnswer_eq_panic hex⟩
      · refine Or.inl ⟨⟨by simp, ?_⟩, exists_perform_eq_ok crates info w hlist⟩
        intro h
        exact absurd (Outcome.ok.inj h) hlist

theorem handleRequest_returns_iff (crates : Crates) (info : RequestInfo) (w : World)
    (buf : Bytes) :
    (∃ reply, (Agent.handleRequest crates buf info w).outcome = .ok reply) ↔
      Answerable w buf := by
  rw [outcome_handleRequest]
  rcases handled_answered crates info w buf with ⟨h, hreply⟩ | ⟨h, hpanic⟩
  · exact ⟨fun _ => h, fun _ => hreply⟩
  · refine ⟨?_, fun h' => absurd h' h⟩
    rintro ⟨reply, hreply⟩
    rw [hpanic] at hreply
    cases hreply

/-! ## The mutex -/

/-- `Arc<Mutex<Agent>>` -/
structure AgentMutex where
  world : World
  poisoned : Bool

/-- `agent.lock().unwrap()`, then `handle_request` under the lock: the reply if no panic ended it,
the mutex, and the events. A panic under the lock poisons the mutex, and locking a poisoned mutex
panics. -/
def lockAndHandle (crates : Crates) (mutex : AgentMutex) (call : Call) :
    Option Bytes × AgentMutex × List Event :=
  if mutex.poisoned then (none, mutex, [])
  else
    match Agent.handleRequest crates call.buf call.info mutex.world with
    | ⟨.ok reply, w, events⟩ => (some reply, { mutex with world := w }, events)
    | ⟨_, w, events⟩ => (none, { world := w, poisoned := true }, events)

/-- The replies to a sequence of requests, and the mutex after it. -/
def serveAll (crates : Crates) : AgentMutex → List Call → List (Option Bytes) × AgentMutex
  | mutex, [] => ([], mutex)
  | mutex, call :: calls =>
      let (reply, mutex', _) := lockAndHandle crates mutex call
      let (replies, mutex'') := serveAll crates mutex' calls
      (reply :: replies, mutex'')

theorem lockAndHandle_of_ok {crates : Crates} {w : World} (call : Call) {reply : Bytes}
    (h : (Agent.handleRequest crates call.buf call.info w).outcome = .ok reply) :
    lockAndHandle crates { world := w, poisoned := false } call =
      (some reply, { world := (handled crates call.info w call.buf).world, poisoned := false },
        (Agent.handleRequest crates call.buf call.info w).events) := by
  rw [lockAndHandle, ← world_handleRequest]
  rcases hreq : Agent.handleRequest crates call.buf call.info w with ⟨outcome, w', events⟩
  rw [hreq] at h
  subst h
  rfl

theorem lockAndHandle_of_answerable (crates : Crates) {w : World} (call : Call)
    (h : Answerable w call.buf) :
    ∃ reply, lockAndHandle crates { world := w, poisoned := false } call =
      (some reply, { world := (handled crates call.info w call.buf).world, poisoned := false },
        (Agent.handleRequest crates call.buf call.info w).events) := by
  obtain ⟨reply, hreply⟩ := (handleRequest_returns_iff crates call.info w call.buf).2 h
  exact ⟨reply, lockAndHandle_of_ok call hreply⟩

theorem lockAndHandle_of_not_answerable (crates : Crates) {w : World} (call : Call)
    (h : ¬ Answerable w call.buf) :
    lockAndHandle crates { world := w, poisoned := false } call =
      (none, { world := (handled crates call.info w call.buf).world, poisoned := true },
        (Agent.handleRequest crates call.buf call.info w).events) := by
  rcases handled_answered crates call.info w call.buf with ⟨h', -⟩ | ⟨-, hpanic⟩
  · exact absurd h' h
  · rw [← outcome_handleRequest] at hpanic
    rw [lockAndHandle, ← world_handleRequest]
    rcases hreq : Agent.handleRequest crates call.buf call.info w with ⟨outcome, w', events⟩
    rw [hreq] at hpanic
    subst hpanic
    rfl

/-- Every request gets a reply, and the mutex stays usable. -/
def AllAnswered (crates : Crates) (w : World) (calls : List Call) : Prop :=
  (∀ reply ∈ (serveAll crates { world := w, poisoned := false } calls).1, reply ≠ none) ∧
    (serveAll crates { world := w, poisoned := false } calls).2.poisoned = false

instance (crates : Crates) (w : World) (calls : List Call) :
    Decidable (AllAnswered crates w calls) := by
  unfold AllAnswered
  infer_instance

theorem allAnswered_cons {crates : Crates} {w : World} {call : Call} {calls : List Call} :
    AllAnswered crates w (call :: calls) ↔
      Answerable w call.buf ∧
        AllAnswered crates (handled crates call.info w call.buf).world calls := by
  by_cases h : Answerable w call.buf
  · obtain ⟨reply, hreply⟩ := lockAndHandle_of_answerable crates call h
    simp only [AllAnswered, serveAll, hreply, h, true_and]
    simp
  -- the first request is not answered, so nothing else matters
  · have hnone := lockAndHandle_of_not_answerable crates call h
    simp only [AllAnswered, serveAll, hnone, h, false_and, iff_false, not_and]
    intro hall
    exact absurd rfl (hall none List.mem_cons_self)

/-- No request divides by zero or has an integer that is too large for OpenSSL, and no listing comes
after an addition of a key with a zero exponent or modulus. -/
def Harmless (calls : List Call) : Prop :=
  ∀ pre call post, calls = pre ++ call :: post → ¬ Fatal call.buf ∧
    (call.buf.head? = some sshAgentcRequestIdentities →
      ∀ keyPair ∈ additions pre, keyPair.publicKey.Usable)

/-- The stored keys after a request can all be encoded when those before it and an added one can. -/
theorem usable_handled_iff (crates : Crates) (info : RequestInfo) (w : World) (buf : Bytes) :
    (∀ keyPair ∈ (handled crates info w buf).world.config.keys, keyPair.publicKey.Usable) ↔
      (∀ keyPair ∈ w.config.keys, keyPair.publicKey.Usable) ∧
        ∀ keyPair ∈ (addedBy buf).toList, keyPair.publicKey.Usable := by
  have hkeys (l : List KeyPair) :
      (∀ keyPair ∈ l, keyPair.publicKey.Usable) ↔
        ∀ k ∈ keys KeyPair.publicKey l, k.Usable := by
    simp
  rw [hkeys, hkeys, hkeys, keys_handled]
  simp only [mem_keys_foldl_insertNew, or_imp, forall_and]

theorem additions_cons (call : Call) (calls : List Call) :
    additions (call :: calls) = (addedBy call.buf).toList ++ additions calls := by
  rw [additions, additions, List.filterMap_cons]
  cases addedBy call.buf <;> rfl

/-- `Harmless` with the keys that are stored at the start. -/
def HarmlessFrom (w : World) (calls : List Call) : Prop :=
  ∀ pre call post, calls = pre ++ call :: post → ¬ Fatal call.buf ∧
    (call.buf.head? = some sshAgentcRequestIdentities →
      (∀ keyPair ∈ w.config.keys, keyPair.publicKey.Usable) ∧
        ∀ keyPair ∈ additions pre, keyPair.publicKey.Usable)

theorem harmlessFrom_cons (crates : Crates) (w : World) (call : Call) (calls : List Call) :
    HarmlessFrom w (call :: calls) ↔
      Answerable w call.buf ∧
        HarmlessFrom (handled crates call.info w call.buf).world calls := by
  constructor
  · intro h
    refine ⟨?_, fun pre c post hcalls => ?_⟩
    -- the first request has no additions before it
    · obtain ⟨hzero, hlist⟩ := h [] call calls rfl
      exact ⟨hzero, fun hl => (hlist hl).1⟩
    -- a later one comes after the key that the first may have added
    · obtain ⟨hzero, hlist⟩ := h (call :: pre) c post (by rw [hcalls, List.cons_append])
      refine ⟨hzero, ?_⟩
      intro hl
      obtain ⟨hw, hadd⟩ := hlist hl
      rw [additions_cons] at hadd
      refine ⟨(usable_handled_iff crates call.info w call.buf).2 ⟨hw, ?_⟩, ?_⟩
      · exact fun keyPair hk => hadd keyPair (List.mem_append_left _ hk)
      · exact fun keyPair hk => hadd keyPair (List.mem_append_right _ hk)
  · rintro ⟨hcall, h⟩ pre c post hcalls
    cases pre with
    | nil =>
        simp only [List.nil_append, List.cons.injEq] at hcalls
        obtain ⟨rfl, -⟩ := hcalls
        exact ⟨hcall.1, fun hl => ⟨hcall.2 hl, by simp [additions]⟩⟩
    | cons d pre =>
        simp only [List.cons_append, List.cons.injEq] at hcalls
        obtain ⟨rfl, hcalls⟩ := hcalls
        obtain ⟨hzero, hlist⟩ := h pre c post hcalls
        refine ⟨hzero, ?_⟩
        intro hl
        obtain ⟨hhandled, hpre⟩ := hlist hl
        obtain ⟨hw, hadd⟩ := (usable_handled_iff crates call.info w call.buf).1 hhandled
        refine ⟨hw, ?_⟩
        intro keyPair hk
        rw [additions_cons] at hk
        exact (List.mem_append.1 hk).elim (hadd keyPair) (hpre keyPair)

theorem allAnswered_iff_harmlessFrom (crates : Crates) (w : World) (calls : List Call) :
    AllAnswered crates w calls ↔ HarmlessFrom w calls := by
  induction calls generalizing w with
  | nil => simp [AllAnswered, serveAll, HarmlessFrom]
  | cons call calls ih => rw [allAnswered_cons, ih, harmlessFrom_cons crates]

/-- **When all requests are answered.** From a list of usable keys, every request of a sequence is
answered and the mutex never poisoned exactly when no request divides by zero or has an integer that
is too large for OpenSSL, and no listing comes after an addition of a key with a zero exponent or
modulus. -/
theorem allAnswered_iff (crates : Crates) (w : World) (calls : List Call)
    (hw : ∀ keyPair ∈ w.config.keys, keyPair.publicKey.Usable) :
    AllAnswered crates w calls ↔ Harmless calls := by
  rw [allAnswered_iff_harmlessFrom, Harmless, HarmlessFrom]
  simp only [and_iff_right hw]

/-- An addition, and a listing of the keys with the new one. -/
theorem allAnswered_iff_small :
    Harmless [⟨⟨"Pipe", none⟩, addIdentityRequest smallKey "a"⟩,
      ⟨⟨"Unix", none⟩, [sshAgentcRequestIdentities]⟩] :=
  (allAnswered_iff Reference.crates (emptyWorld true .none) _ (by decide)).1 (by decide +kernel)

/-- A key with a prime equal to `1` takes the agent down: the next client gets no answer either. -/
theorem unanswered_after_zero_divisor :
    ¬ AllAnswered Reference.crates (emptyWorld true .none)
      [⟨⟨"Pipe", none⟩, addIdentityRequest { smallKey with p := 1 } "a"⟩,
        ⟨⟨"Unix", none⟩, [sshAgentcRequestIdentities]⟩] := by
  decide +kernel

end SshKeys
