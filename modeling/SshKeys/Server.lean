import SshKeys.Connection
import SshKeys.Lib.Trace

/-!
# The serving process

Any number of connections around one agent, with the steps of `Connection` interleaved in any order;
a connection may be accepted and the configuration reloaded at any time. The log keeps every event
with its connection (`Server`).

`server_signatures` says which events come before a signature and before a signature response, in
any run. Handling is one step, because the mutex is held throughout, so the events of a request are
next to each other in the log.
-/

set_option autoImplicit false

namespace SshKeys

open Lib Lib.Trace

/-- The number of a connection. -/
abbrev ConnId := Nat

/-- The agent behind its mutex, the connections, and what was recorded. -/
structure Server where
  mutex : AgentMutex
  conns : ConnId → Option Conn
  log : List (ConnId × Event)

namespace Server

/-- No connection yet. -/
def start (w : World) : Server where
  mutex := { world := w, poisoned := false }
  conns _ := none
  log := []

end Server

/-- A step of the process. -/
inductive ServerAct where
  /-- A listener accepts a client and starts a thread for it. -/
  | accept (id : ConnId) (info : RequestInfo) (rw : ReadWrite)
  | step (id : ConnId)
  /-- The tray command. -/
  | reload (fault : LoadFault)

/-- A new connection, which begins to read. -/
def acceptConn (s : Server) (id : ConnId) (info : RequestInfo) (rw : ReadWrite) : Option Server :=
  match s.conns id with
  | some _ => none
  | none =>
      some { s with conns := Function.update s.conns id (some { info, rw, phase := .reading }) }

/-- One step of the loop of a connection. -/
def stepConn (crates : Crates) (s : Server) (id : ConnId) : Option Server :=
  match s.conns id with
  | none => none
  | some conn =>
      match connStep crates (conn, s.mutex) with
      | none => none
      | some ((conn', mutex), events) =>
          some {
            mutex
            conns := Function.update s.conns id (some conn')
            log := s.log ++ events.map fun event => (id, event) }

/-- On a poisoned mutex the main thread panics, and the process ends. -/
def reloadServer (crates : Crates) (s : Server) (fault : LoadFault) : Option Server :=
  if s.mutex.poisoned then none
  else
    let w := s.mutex.world
    let config := (Config.reload crates fault w.file w.config).2
    some { s with mutex := { s.mutex with world := { w with config } } }

/-- The connections around the mutex. The states are those in which no thread holds it: a thread
that waits in `lock()` takes no step, and its step at the mutex handles the whole request. -/
def serverMachine (crates : Crates) : Machine Server ServerAct where
  step s act :=
    match act with
    | .accept id info rw => acceptConn s id info rw
    | .step id => stepConn crates s id
    | .reload fault => reloadServer crates s fault

/-! ## Signature requests -/

/-- An event that is neither a signature nor a reply. -/
def Event.Quiet : Event → Prop
  | .sign _ _ _ _ => False
  | .reply _ => False
  | _ => True

/-- What a run does that uses a key: it asks for the first key pair with the public key of the
request, and signs after a yes. -/
structure Signs (info : RequestInfo) (w : World) (buf : Bytes) (r : Ran World Event Error Bytes)
    (keyPair : KeyPair) (msg : Bytes) (flags : Nat) (sig : Option Bytes) : Prop where
  request : SignRequestFor buf keyPair.publicKey msg flags
  first : ∃ idx, Agent.getKey w.config keyPair.publicKey = some (keyPair, idx)
  events : r.events =
    [.confirm keyPair info true, .sign keyPair.privateKey msg flags sig]
  /-- Only a signature makes a signature response. -/
  reply : ∀ resp, r.outcome = .ok resp → resp.head? = some sshAgentSignResponse →
    ∃ s, sig = some s ∧ resp = sshAgentSignResponse :: writeString s

/-- What a run does that signs nothing. -/
structure SignsNothing (r : Ran World Event Error Bytes) : Prop where
  quiet : ∀ event ∈ r.events, event.Quiet
  reply : ∀ resp, r.outcome = .ok resp → resp.head? ≠ some sshAgentSignResponse

theorem identitiesAnswer_head {keys : List KeyPair} {resp : Bytes}
    (h : identitiesAnswer keys = .ok resp) : resp.head? = some sshAgentIdentitiesAnswer := by
  rw [identitiesAnswer, Outcome.bind_eq_ok_iff] at h
  obtain ⟨entries, -, h⟩ := h
  simp only [Outcome.pure_eq, Outcome.ok.injEq] at h
  rw [← h]
  rfl

theorem signsNothing_of_reply {r : Ran World Event Error Bytes} {resp : Bytes}
    (hquiet : ∀ event ∈ r.events, event.Quiet) (houtcome : r.outcome = .ok resp)
    (hresp : resp.head? ≠ some sshAgentSignResponse) : SignsNothing r where
  quiet := hquiet
  reply resp' h := by
    rw [houtcome, Outcome.ok.injEq] at h
    rwa [← h]

/-- Every request either signs as it should or signs nothing. -/
theorem handled_signs (crates : Crates) (info : RequestInfo) (w : World) (buf : Bytes) :
    SignsNothing (handled crates info w buf) ∨
      ∃ keyPair msg flags sig,
        Signs info w buf (handled crates info w buf) keyPair msg flags sig := by
  rw [handled]
  cases hparse : Command.parse buf with
  | err e => exact Or.inl (signsNothing_of_reply (by simp) rfl (by decide))
  | panic => exact Or.inl ⟨by simp, by simp⟩
  | ok command =>
  simp only
  cases command with
  | requestIdentities =>
      refine Or.inl ⟨by simp [perform], ?_⟩
      intro resp h
      rw [identitiesAnswer_head h]
      decide
  | addIdentity keyPair =>
      left
      have hadding := adding_perform crates info w keyPair
      generalize perform crates info w (.addIdentity keyPair) = r at hadding ⊢
      cases hadding with
      | present hmem => exact signsNothing_of_reply (by simp) rfl (by decide)
      | saved hnew hsave => exact signsNothing_of_reply (by simp [Event.Quiet]) rfl (by decide)
      | unsaved hnew hsave => exact signsNothing_of_reply (by simp [Event.Quiet]) rfl (by decide)
  | signRequest publicKey msg flags =>
      have hrequest := signRequestFor_of_parse hparse
      have hsigning := signing_perform crates info w publicKey msg flags
      generalize perform crates info w (.signRequest publicKey msg flags) = r at hsigning ⊢
      cases hsigning with
      | unknown hget => exact Or.inl (signsNothing_of_reply (by simp) rfl (by decide))
      | refused hget hyes =>
          exact Or.inl (signsNothing_of_reply (by simp [Event.Quiet]) rfl (by decide))
      -- the signature was asked for and confirmed, but the reply is a failure
      | @failed keyPair idx hget hyes hsign =>
          obtain ⟨-, -, -, -, hkey, -⟩ := Agent.getKey_eq_some_iff.1 hget
          rw [← hkey] at hrequest hget
          refine Or.inr ⟨keyPair, msg, flags, none, hrequest, ⟨idx, hget⟩, rfl, ?_⟩
          intro resp h hresp
          rw [← Outcome.ok.inj h] at hresp
          exact absurd hresp (by decide)
      | @signed keyPair idx sig hget hyes hsign =>
          obtain ⟨-, -, -, -, hkey, -⟩ := Agent.getKey_eq_some_iff.1 hget
          rw [← hkey] at hrequest hget
          refine Or.inr ⟨keyPair, msg, flags, some sig, hrequest, ⟨idx, hget⟩, rfl, ?_⟩
          intro resp h hresp
          exact ⟨sig, rfl, (Outcome.ok.inj h).symm⟩

/-! ## The log -/

/-- The three events of a signature on connection `c`, which has the information `info`. -/
def signingEvents (c : ConnId) (info : RequestInfo) (keys : List KeyPair) (buf : Bytes)
    (keyPair : KeyPair) (msg : Bytes) (flags : Nat) (sig : Option Bytes) : List (ConnId × Event) :=
  [(c, .request keys buf info), (c, .confirm keyPair info true),
    (c, .sign keyPair.privateKey msg flags sig)]

/-- `buf` asks for a signature with the first of `keys` that has the public key of `keyPair`, which
is `keyPair` itself. -/
def AsksFor (keys : List KeyPair) (buf : Bytes) (keyPair : KeyPair) (msg : Bytes) (flags : Nat) :
    Prop :=
  SignRequestFor buf keyPair.publicKey msg flags ∧
    ∃ idx, Agent.getKey { keys } keyPair.publicKey = some (keyPair, idx)

/-- A signature comes directly after a confirmed dialog for the same key, with the information of
the connection, and this directly after the request for it. -/
def Licensed (conns : ConnId → Option Conn) (pre : List (ConnId × Event))
    (entry : ConnId × Event) : Prop :=
  ∀ c key msg flags sig, entry = (c, .sign key msg flags sig) →
    ∃ before keys buf info keyPair, keyPair.privateKey = key ∧
      pre ++ [entry] = before ++ signingEvents c info keys buf keyPair msg flags sig ∧
      (∃ conn, conns c = some conn ∧ conn.info = info) ∧ AsksFor keys buf keyPair msg flags

/-- The last thing that connection `c` did is a signature, and `resp` carries it. -/
def EndsInSignature (c : ConnId) (log : List (ConnId × Event)) (resp : Bytes) : Prop :=
  ∃ before keys buf info keyPair msg flags sig, AsksFor keys buf keyPair msg flags ∧
    log.filter (fun entry => entry.1 == c) =
      before ++ signingEvents c info keys buf keyPair msg flags (some sig) ∧
    resp = sshAgentSignResponse :: writeString sig

/-- A signature response is the answer to a request for the signature it carries. -/
def Answered (pre : List (ConnId × Event)) (entry : ConnId × Event) : Prop :=
  ∀ c resp, entry = (c, .reply resp) → resp.head? = some sshAgentSignResponse →
    EndsInSignature c pre resp

/-- What holds of every server reached. -/
structure Server.Inv (s : Server) : Prop where
  licensed : Always (Licensed s.conns) s.log
  answered : Always Answered s.log
  /-- A reply that waits to be written. -/
  pending : ∀ c conn resp, s.conns c = some conn → conn.phase = .writing resp →
    resp.head? = some sshAgentSignResponse → EndsInSignature c s.log resp

theorem licensed_mono {conns conns' : ConnId → Option Conn}
    (h : ∀ c conn, conns c = some conn → ∃ conn', conns' c = some conn' ∧ conn'.info = conn.info)
    {pre : List (ConnId × Event)} {entry : ConnId × Event} (hl : Licensed conns pre entry) :
    Licensed conns' pre entry := by
  intro c key msg flags sig hentry
  obtain ⟨before, keys, buf, info, keyPair, hkey, hpre, ⟨conn, hconn, hinfo⟩, hasks⟩ :=
    hl c key msg flags sig hentry
  obtain ⟨conn', hconn', hinfo'⟩ := h c conn hconn
  exact ⟨before, keys, buf, info, keyPair, hkey, hpre, ⟨conn', hconn', hinfo'.trans hinfo⟩, hasks⟩

theorem licensed_of_quiet {conns : ConnId → Option Conn} {pre : List (ConnId × Event)}
    {entry : ConnId × Event} (h : entry.2.Quiet) : Licensed conns pre entry := by
  rintro c key msg flags sig rfl
  exact absurd h not_false

theorem answered_of_quiet {pre : List (ConnId × Event)} {entry : ConnId × Event}
    (h : entry.2.Quiet) : Answered pre entry := by
  rintro c resp rfl
  exact absurd h not_false

theorem endsInSignature_append_of_ne {c c' : ConnId} {log : List (ConnId × Event)} {resp : Bytes}
    (h : EndsInSignature c log resp) (hne : c' ≠ c) (events : List Event) :
    EndsInSignature c (log ++ events.map fun event => (c', event)) resp := by
  obtain ⟨before, keys, buf, info, keyPair, msg, flags, sig, hasks, hlog, hresp⟩ := h
  refine ⟨before, keys, buf, info, keyPair, msg, flags, sig, hasks, ?_, hresp⟩
  -- nothing of another connection is in the log of this one
  have hnone : (events.map fun event => (c', event)).filter (fun entry => entry.1 == c) = [] := by
    simp [List.filter_eq_nil_iff, hne]
  rw [List.filter_append, hlog, hnone, List.append_nil]

/-- What handling under the mutex records, and where its reply comes from. -/
theorem lockAndHandle_cases {crates : Crates} {mutex mutex' : AgentMutex} {call : Call}
    {reply : Option Bytes} {es : List Event}
    (h : lockAndHandle crates mutex call = (reply, mutex', es)) :
    (es = [] ∧ reply = none) ∨
      (es = .request mutex.world.config.keys call.buf call.info ::
          (handled crates call.info mutex.world call.buf).events ∧
        ∀ resp, reply = some resp →
          (handled crates call.info mutex.world call.buf).outcome = .ok resp) := by
  rw [lockAndHandle, Agent.handleRequest_eq, Effect.after] at h
  by_cases hp : mutex.poisoned
  · rw [if_pos hp] at h
    simp only [Prod.mk.injEq] at h
    exact Or.inl ⟨h.2.2.symm, h.1.symm⟩
  · rw [if_neg hp] at h
    right
    generalize handled crates call.info mutex.world call.buf = r at h ⊢
    rcases r with ⟨outcome, w', events⟩
    cases outcome with
    | ok resp =>
        cases h
        exact ⟨rfl, fun resp' hresp' => by rw [Option.some.inj hresp']⟩
    | err e =>
        cases h
        exact ⟨rfl, by simp⟩
    | panic =>
        cases h
        exact ⟨rfl, by simp⟩

theorem inv_start (w : World) : (Server.start w).Inv where
  licensed := always_nil
  answered := always_nil
  pending _ _ _ h := by cases h

theorem exists_update_info {conns : ConnId → Option Conn} {id : ConnId} {conn conn' : Conn}
    (hconn : conns id = some conn) (hinfo : conn'.info = conn.info) :
    ∀ c old, conns c = some old →
      ∃ new, Function.update conns id (some conn') c = some new ∧ new.info = old.info := by
  intro c old hold
  by_cases hc : c = id
  · subst hc
    rw [hconn, Option.some.injEq] at hold
    exact ⟨conn', Function.update_self c _ _, hold ▸ hinfo⟩
  · exact ⟨old, by rw [Function.update_of_ne hc, hold], rfl⟩

/-- Replies that wait on other connections still wait, with the same last events. -/
theorem pending_update {s : Server} (h : s.Inv) (id : ConnId) (conn' : Conn) (events : List Event)
    (hid : ∀ resp, conn'.phase = .writing resp → resp.head? = some sshAgentSignResponse →
      EndsInSignature id (s.log ++ events.map fun event => (id, event)) resp) :
    ∀ c conn resp, Function.update s.conns id (some conn') c = some conn →
      conn.phase = .writing resp → resp.head? = some sshAgentSignResponse →
      EndsInSignature c (s.log ++ events.map fun event => (id, event)) resp := by
  intro c conn resp hconn hphase hresp
  by_cases hc : c = id
  · subst hc
    rw [Function.update_self, Option.some.injEq] at hconn
    subst hconn
    exact hid resp hphase hresp
  · rw [Function.update_of_ne hc] at hconn
    have hends := h.pending c conn resp hconn hphase hresp
    exact endsInSignature_append_of_ne hends (Ne.symm hc) events

theorem inv_acceptConn {s s' : Server} {id : ConnId} {info : RequestInfo} {rw : ReadWrite}
    (h : s.Inv) (hstep : acceptConn s id info rw = some s') : s'.Inv := by
  rw [acceptConn] at hstep
  cases hid : s.conns id with
  | some conn => simp [hid] at hstep
  | none =>
      rw [hid] at hstep
      simp only [Option.some.injEq] at hstep
      subst hstep
      have hold : ∀ c conn, s.conns c = some conn → ∃ conn',
          Function.update s.conns id (some { info, rw, phase := .reading }) c = some conn' ∧
            conn'.info = conn.info := by
        intro c conn hconn
        have hc : c ≠ id := by
          rintro rfl
          rw [hid] at hconn
          cases hconn
        exact ⟨conn, by rw [Function.update_of_ne hc, hconn], rfl⟩
      refine ⟨h.licensed.mono fun pre entry => licensed_mono hold, h.answered, ?_⟩
      have hpending := pending_update h id { info, rw, phase := .reading } [] (by simp)
      simpa using hpending

/-- The server after a step of the connection `id` that recorded `events`. -/
def Server.record (s : Server) (id : ConnId) (conn : Conn) (mutex : AgentMutex)
    (events : List Event) : Server where
  mutex := mutex
  conns := Function.update s.conns id (some conn)
  log := s.log ++ events.map fun event => (id, event)

section Record

variable {s : Server} {id : ConnId} {conn conn' : Conn} (h : s.Inv)
  (hid : s.conns id = some conn) (hinfo : conn'.info = conn.info) (mutex : AgentMutex)

include h hid hinfo

theorem licensed_update : Always (Licensed (Function.update s.conns id (some conn'))) s.log := by
  refine h.licensed.mono ?_
  intro pre entry hl
  exact licensed_mono (exists_update_info hid hinfo) hl

/-- A step that signs nothing, and after which no signature response waits to be written. -/
theorem inv_record_quiet {events : List Event} (hquiet : ∀ event ∈ events, event.Quiet)
    (hnot : ∀ resp, conn'.phase = .writing resp → resp.head? ≠ some sshAgentSignResponse) :
    (s.record id conn' mutex events).Inv := by
  have hentries : ∀ entry ∈ events.map fun event => (id, event), entry.2.Quiet := by
    intro entry hentry
    obtain ⟨event, hevent, rfl⟩ := List.mem_map.1 hentry
    exact hquiet event hevent
  refine ⟨?_, ?_, ?_⟩
  · apply (licensed_update h hid hinfo).append
    intro entry hentry pre
    exact licensed_of_quiet (hentries entry hentry)
  · apply h.answered.append
    intro entry hentry pre
    exact answered_of_quiet (hentries entry hentry)
  · apply pending_update h id conn' events
    intro resp hphase hresp
    exact absurd hresp (hnot resp hphase)

/-- A step that signs, and after which the response waits to be written. -/
theorem inv_record_signing {keys : List KeyPair} {buf msg : Bytes} {keyPair : KeyPair}
    {flags : Nat} {sig : Option Bytes} (hasks : AsksFor keys buf keyPair msg flags)
    (hresponse : ∀ resp, conn'.phase = .writing resp → resp.head? = some sshAgentSignResponse →
      ∃ s, sig = some s ∧ resp = sshAgentSignResponse :: writeString s) :
    (s.record id conn' mutex [.request keys buf conn.info, .confirm keyPair conn.info true,
      .sign keyPair.privateKey msg flags sig]).Inv := by
  -- two events that need no licence, and the signature that they license
  have hlog : s.log ++ signingEvents id conn.info keys buf keyPair msg flags sig =
      s.log ++ [(id, .request keys buf conn.info), (id, .confirm keyPair conn.info true)] ++
        [(id, .sign keyPair.privateKey msg flags sig)] := by
    simp [signingEvents]
  have hquiet : ∀ entry ∈ [(id, Event.request keys buf conn.info),
      (id, .confirm keyPair conn.info true)], entry.2.Quiet := by
    simp [Event.Quiet]
  refine ⟨?_, ?_, ?_⟩
  · show Always _ (s.log ++ signingEvents id conn.info keys buf keyPair msg flags sig)
    rw [hlog, always_concat]
    constructor
    · apply (licensed_update h hid hinfo).append
      intro entry hentry pre
      exact licensed_of_quiet (hquiet entry hentry)
    · intro c key msg' flags' sig' heq
      simp only [Prod.mk.injEq, Event.sign.injEq] at heq
      obtain ⟨rfl, rfl, rfl, rfl, rfl⟩ := heq
      exact ⟨s.log, keys, buf, conn.info, keyPair, rfl, hlog.symm,
        ⟨conn', Function.update_self _ _ _, hinfo⟩, hasks⟩
  · show Always _ (s.log ++ signingEvents id conn.info keys buf keyPair msg flags sig)
    rw [hlog, always_concat]
    constructor
    · apply h.answered.append
      intro entry hentry pre
      exact answered_of_quiet (hquiet entry hentry)
    · intro c resp heq
      simp at heq
  · apply pending_update h id conn'
    intro resp hphase hresp
    obtain ⟨sig', rfl, rfl⟩ := hresponse resp hphase hresp
    refine ⟨s.log.filter (fun entry => entry.1 == id), keys, buf, conn.info, keyPair, msg, flags,
      sig', hasks, ?_, rfl⟩
    rw [List.filter_append]
    simp [signingEvents]

/-- A step that writes the reply that was waiting. -/
theorem inv_record_reply {resp : Bytes} (hphase : conn.phase = .writing resp)
    (hnot : ∀ resp', conn'.phase ≠ .writing resp') :
    (s.record id conn' mutex [.reply resp]).Inv := by
  refine ⟨?_, ?_, ?_⟩
  · refine always_concat.2 ⟨licensed_update h hid hinfo, ?_⟩
    intro c key msg flags sig heq
    simp at heq
  · refine always_concat.2 ⟨h.answered, ?_⟩
    intro c resp' heq hresp
    simp only [Prod.mk.injEq, Event.reply.injEq] at heq
    obtain ⟨rfl, rfl⟩ := heq
    exact h.pending id conn resp hid hphase hresp
  · apply pending_update h id conn'
    intro resp' hphase'
    exact absurd hphase' (hnot resp')

end Record

theorem stepConn_eq_some {crates : Crates} {s s' : Server} {id : ConnId}
    (h : stepConn crates s id = some s') :
    ∃ conn conn' mutex events, s.conns id = some conn ∧
      connStep crates (conn, s.mutex) = some ((conn', mutex), events) ∧
      s' = s.record id conn' mutex events := by
  rw [stepConn] at h
  cases hid : s.conns id with
  | none => simp [hid] at h
  | some conn =>
      rw [hid] at h
      simp only at h
      cases hconn : connStep crates (conn, s.mutex) with
      | none => simp [hconn] at h
      | some next =>
          rcases next with ⟨⟨conn', mutex⟩, events⟩
          rw [hconn] at h
          exact ⟨conn, conn', mutex, events, rfl, hconn, (Option.some.inj h).symm⟩

theorem inv_stepConn {crates : Crates} {s s' : Server} {id : ConnId} (h : s.Inv)
    (hstep : stepConn crates s id = some s') : s'.Inv := by
  obtain ⟨conn, conn', mutex, events, hid, hconn, rfl⟩ := stepConn_eq_some hstep
  obtain ⟨hinfo, hcases⟩ := connStep_cases hconn
  rcases hcases with ⟨-, -, rfl, hnot⟩ | ⟨buf, reply, -, hlock, hwriting⟩ |
    ⟨resp, hphase, -, rfl, hnot⟩
  · -- a frame was read
    apply inv_record_quiet h hid hinfo mutex (by simp)
    intro resp hresp
    exact absurd hresp (hnot resp)
  · -- a request was handled, on a mutex that may be poisoned
    rcases lockAndHandle_cases hlock with ⟨rfl, rfl⟩ | ⟨rfl, hreply⟩
    · apply inv_record_quiet h hid hinfo mutex (by simp)
      intro resp hresp
      exact absurd (hwriting resp hresp) (by simp)
    rcases handled_signs crates conn.info s.mutex.world buf with hnothing |
      ⟨keyPair, msg, flags, sig, hsigns⟩
    · apply inv_record_quiet h hid hinfo mutex
      · intro event hevent
        rcases List.mem_cons.1 hevent with rfl | hevent
        · exact trivial
        · exact hnothing.quiet event hevent
      · intro resp hresp
        exact hnothing.reply resp (hreply resp (hwriting resp hresp))
    · rw [hsigns.events]
      apply inv_record_signing h hid hinfo mutex ⟨hsigns.request, hsigns.first⟩
      intro resp hresp
      exact hsigns.reply resp (hreply resp (hwriting resp hresp))
  · -- a reply was written
    exact inv_record_reply h hid hinfo mutex hphase hnot

theorem inv_step {crates : Crates} {s s' : Server} {act : ServerAct} (h : s.Inv)
    (hstep : (serverMachine crates).step s act = some s') : s'.Inv := by
  cases act with
  | accept id info rw => exact inv_acceptConn h hstep
  | step id => exact inv_stepConn h hstep
  -- a reload changes the key list only, and the log keeps the lists it had
  | reload fault =>
      simp only [serverMachine, reloadServer] at hstep
      split at hstep
      · cases hstep
      · simp only [Option.some.injEq] at hstep
        subst hstep
        exact ⟨h.licensed, h.answered, h.pending⟩

/-- A signature with `key` on connection `c`. -/
def signsWith (c : ConnId) (key : PrivateKey) : ConnId × Event → Bool
  | (c', .sign key' _ _ _) => decide (c' = c ∧ key' = key)
  | _ => false

/-- A yes for `key` on connection `c`. -/
def yesFor (c : ConnId) (key : PrivateKey) : ConnId × Event → Bool
  | (c', .confirm keyPair _ true) => decide (c' = c ∧ keyPair.privateKey = key)
  | _ => false

theorem signsWith_eq_true {c : ConnId} {key : PrivateKey} {entry : ConnId × Event}
    (h : signsWith c key entry = true) : ∃ msg flags sig, entry = (c, .sign key msg flags sig) := by
  rcases entry with ⟨c', event⟩
  cases event with
  | sign key' msg flags sig =>
      obtain ⟨rfl, rfl⟩ := of_decide_eq_true h
      exact ⟨msg, flags, sig, rfl⟩
  | request keys buf info => cases h
  | confirm keyPair info answer => cases h
  | save ok => cases h
  | reply resp => cases h

theorem signsWith_of_yesFor {c : ConnId} {key : PrivateKey} {entry : ConnId × Event}
    (h : yesFor c key entry = true) : signsWith c key entry = false := by
  rcases entry with ⟨c', event⟩
  cases event with
  | sign key' msg flags sig => cases h
  | request keys buf info => rfl
  | confirm keyPair info answer => rfl
  | save ok => rfl
  | reply resp => rfl

/-- **Every signature is asked for and confirmed.** In any run, with any clients and any answers:
every signature comes directly after a yes to a dialog for that key pair with the information of
that connection, directly after the request for it; a signature response is the answer to such a
request on its connection and carries its signature; and there are no more signatures with a key on
a connection than yeses for it. -/
theorem server_signatures (crates : Crates) (w : World) (acts : List ServerAct) (s : Server)
    (hrun : (serverMachine crates).run (Server.start w) acts = some s) :
    Always (Licensed s.conns) s.log ∧ Always Answered s.log ∧
      ∀ c key, s.log.countP (signsWith c key) ≤ s.log.countP (yesFor c key) := by
  have hinv : s.Inv := Machine.run_invariant (fun _ _ _ hI hs => inv_step hI hs) acts
    (inv_start w) hrun
  refine ⟨hinv.licensed, hinv.answered, ?_⟩
  intro c key
  refine (countP_le_of_preceded (fun _ h => signsWith_of_yesFor h)
    (hinv.licensed.mono fun pre entry hl hsign => ?_)).1
  obtain ⟨msg, flags, sig, rfl⟩ := signsWith_eq_true hsign
  obtain ⟨before, keys, buf, info, keyPair, hkey, hpre, -, -⟩ := hl c key msg flags sig rfl
  -- the event before the signature is the yes that licenses it
  refine ⟨before ++ [(c, .request keys buf info)], (c, .confirm keyPair info true), ?_, ?_⟩
  · have hsplit : pre ++ [(c, Event.sign key msg flags sig)] =
        (before ++ [(c, .request keys buf info)] ++ [(c, .confirm keyPair info true)]) ++
          [(c, .sign keyPair.privateKey msg flags sig)] := by
      rw [hpre]
      simp [signingEvents]
    exact (List.append_inj' hsplit rfl).1
  · exact decide_eq_true ⟨rfl, hkey⟩

/-- One client adds a key while another one lists, and then asks for a signature. -/
def smallServerRun : List ServerAct :=
  [.accept 0 ⟨"Pipe", none⟩
      { input := frame (addIdentityRequest smallKey "k") ++ frame (signRequestMessage
          ((PublicKey.rsa 3 33).encode.toOption.getD []) [1, 2, 3] 4)
        atEnd := .unexpectedEof
        output := []
        room := none },
    .accept 1 ⟨"Unix", none⟩
      { input := frame [sshAgentcRequestIdentities]
        atEnd := .unexpectedEof
        output := []
        room := none },
    .step 0, .step 1, .step 0, .step 1, .step 0, .step 0, .step 1, .step 0, .step 0]

/-- The first bytes of the replies in a log. -/
def replyTypes (log : List (ConnId × Event)) : List UInt8 :=
  log.filterMap fun entry =>
    match entry.2 with
    | .reply resp => resp.head?
    | _ => none

theorem server_signatures_small :
    ∃ s, (serverMachine Reference.crates).run (Server.start (emptyWorld true .none))
        smallServerRun = some s ∧
      replyTypes s.log = [sshAgentSuccess, sshAgentIdentitiesAnswer, sshAgentSignResponse] ∧
      Always (Licensed s.conns) s.log ∧ Always Answered s.log := by
  obtain ⟨s, hs⟩ := Option.isSome_iff_exists.1
    (show ((serverMachine Reference.crates).run (Server.start (emptyWorld true .none))
      smallServerRun).isSome = true by decide +kernel)
  have hreplies : ((serverMachine Reference.crates).run (Server.start (emptyWorld true .none))
      smallServerRun).map (fun s => replyTypes s.log) =
        some [sshAgentSuccess, sshAgentIdentitiesAnswer, sshAgentSignResponse] := by
    decide +kernel
  rw [hs, Option.map_some, Option.some.injEq] at hreplies
  have h := server_signatures Reference.crates (emptyWorld true .none) smallServerRun s hs
  exact ⟨s, hs, hreplies, h.1, h.2.1⟩

end SshKeys
