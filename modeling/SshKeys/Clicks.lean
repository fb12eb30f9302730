import SshKeys.Order
import SshKeys.Confirmation
import Mathlib.Data.Stream.Init

/-!
# Clicks

The serving process of `Dialog`, with its threads, its menu and its dialogs, compared with the agent
of `Order`, which takes one turn after the other and finds the answers of the user ready. A thread
that asks keeps the mutex until its answer comes, so a request that waits for the user is still one
turn, and the answer that it uses is the click in its own dialog. A description that panics has a
turn too, as it poisons the mutex, and every other description leaves the agent as it is.

`dialog_takes_turns` is the comparison, for any run.
-/

set_option autoImplicit false

namespace SshKeys

open Lib

/-! ## What happened in a run -/

/-- The answers that the user gave, each with the thread that its dialog belongs to. -/
def clicksIn (acts : List DialogAct) : List (ThreadId × Bool) :=
  acts.filterMap fun act =>
    match act with
    | .main (.click t answer) => some (t, answer)
    | _ => none

/-- The reloads under the mutex. -/
def reloadsIn (acts : List DialogAct) : List LoadFault :=
  acts.filterMap fun act =>
    match act with
    | .main (.reload fault) => some fault
    | _ => none

/-- The requests that a thread read from its client. -/
def receivedBy (t : ThreadId) (acts : List DialogAct) : List Call :=
  acts.filterMap fun act =>
    match act with
    | .thread t' (.receive call) => if t' = t then some call else none
    | _ => none

/-- The reloads among the turns. -/
def reloadsOf (turns : List Turn) : List LoadFault :=
  turns.filterMap fun turn =>
    match turn with
    | .request _ _ => none
    | .reload fault => some fault

/-- A turn at the mutex: one of the agent of `Order`, or that of a listener whose description of a
client panics. -/
inductive MutexTurn where
  | agent (turn : Turn)
  | describePanics (t : ThreadId)

/-- The turns of the agent. -/
def agentTurns (turns : List MutexTurn) : List Turn :=
  turns.filterMap fun turn =>
    match turn with
    | .agent turn => some turn
    | .describePanics _ => none

/-- A description that panics handles nothing, and poisons the mutex. -/
def takeMutexTurn (crates : Crates) (taken : Taken) : MutexTurn → Taken
  | .agent turn => takeTurn crates taken turn
  | .describePanics _ => { taken with mutex := { taken.mutex with poisoned := true } }

/-- The turns, one after the other. -/
def takeMutexTurns (crates : Crates) (w : World) (turns : List MutexTurn) : Taken :=
  turns.foldl (takeMutexTurn crates)
    { mutex := { world := w, poisoned := false }, answers := [], events := [] }

/-- The answers of the dialogs among the events. -/
def answersIn (events : List Event) : List Bool :=
  events.filterMap fun event =>
    match event with
    | .confirm _ _ answer => some answer
    | _ => none

/-- The same with the thread that asked. -/
def confirmedIn (entries : List (ConnId × Event)) : List (ConnId × Bool) :=
  entries.filterMap fun entry =>
    match entry.2 with
    | .confirm _ _ answer => some (entry.1, answer)
    | _ => none

/-- The request that a thread has read and not finished. -/
def ThreadPhase.inFlight : ThreadPhase → List Call
  | .locking call => [call]
  | .handling call => [call]
  | .asking call _ => [call]
  | _ => []

/-- The client that a thread describes, or is about to describe. -/
def ThreadPhase.client : ThreadPhase → Option (Desktop × Pid)
  | .lockingDescribe sys pid => some (sys, pid)
  | .describing sys pid => some (sys, pid)
  | _ => none

/-- The answer that is in the channel of the thread. -/
def ThreadPhase.channel : ThreadPhase → List Bool
  | .asking _ (some answer) => [answer]
  | _ => []

/-- The answer that was given and not received. -/
def Serving.unreceived (s : Serving) : List (ThreadId × Bool) :=
  match s.holder with
  | some (.thread t) => (s.threads t).channel.map fun answer => (t, answer)
  | _ => []

theorem reloadsOf_concat_request (turns : List Turn) (id : ConnId) (call : Call) :
    reloadsOf (turns ++ [.request id call]) = reloadsOf turns := by
  rw [reloadsOf, List.filterMap_append]
  exact List.append_nil _

theorem agentTurns_concat (turns : List MutexTurn) (turn : Turn) :
    agentTurns (turns ++ [.agent turn]) = agentTurns turns ++ [turn] := by
  rw [agentTurns, List.filterMap_append]
  rfl

theorem takeMutexTurns_concat (crates : Crates) (w : World) (turns : List MutexTurn)
    (turn : MutexTurn) : takeMutexTurns crates w (turns ++ [turn]) =
      takeMutexTurn crates (takeMutexTurns crates w turns) turn := by
  rw [takeMutexTurns, List.foldl_append]
  rfl

theorem map_agentTurns {turns : List MutexTurn} (h : ∀ t, .describePanics t ∉ turns) :
    (agentTurns turns).map .agent = turns := by
  induction turns with
  | nil => rfl
  | cons turn turns ih =>
      have hrest := ih fun t hmem => h t (List.mem_cons_of_mem turn hmem)
      cases turn with
      | agent turn => exact congrArg (MutexTurn.agent turn :: ·) hrest
      | describePanics t => exact absurd List.mem_cons_self (h t)

/-- Where no description panics, the turns are those of the agent. -/
theorem takeMutexTurns_of_agent (crates : Crates) (w : World) {turns : List MutexTurn}
    (h : ∀ t, .describePanics t ∉ turns) :
    takeMutexTurns crates w turns = takeTurns crates w (agentTurns turns) := by
  rw [← map_agentTurns h, takeMutexTurns, List.foldl_map, map_agentTurns h]
  rfl

theorem confirmedIn_concat_map (entries : List (ConnId × Event)) (id : ConnId)
    (events : List Event) :
    confirmedIn (entries ++ events.map fun event => (id, event)) =
      confirmedIn entries ++ (answersIn events).map fun answer => (id, answer) := by
  rw [confirmedIn, List.filterMap_append]
  congr 1
  rw [List.filterMap_map, answersIn, List.map_filterMap]
  apply List.filterMap_congr
  intro event _
  cases event <;> rfl

/-! ## Requests and answers -/

/-- The same world, in which the user will give these answers. -/
def World.withConfirms (w : World) (confirms : Stream' Bool) : World := { w with confirms }

/-- The answers that handling a request uses. -/
inductive Consumes (w : World) (buf : Bytes) : List Bool → Prop where
  | nothing : asksConfirmation w buf = false → Consumes w buf []
  | answer (yes : Bool) : asksConfirmation w buf = true → Consumes w buf [yes]

/-- Signing with a stored key uses one answer, whatever comes after it. -/
theorem perform_signRequest_withConfirms (crates : Crates) (info : RequestInfo) {w : World}
    {publicKey : PublicKey} {msg : Bytes} {flags : Nat} {keyPair : KeyPair} {idx : Nat}
    (yes : Bool)
    (hget : Agent.getKey w.config publicKey = some (keyPair, idx)) :
    ∃ (outcome : Outcome Error Bytes) (events : List Event),
      answersIn events = [yes] ∧ ∀ c,
        perform crates info (w.withConfirms ([yes] ++ₛ c)) (.signRequest publicKey msg flags) =
          ⟨outcome, w.withConfirms c, events⟩ := by
  have hget' (c : Stream' Bool) :
      Agent.getKey (w.withConfirms ([yes] ++ₛ c)).config publicKey = some (keyPair, idx) := hget
  have hhead (c : Stream' Bool) : (w.withConfirms ([yes] ++ₛ c)).confirms.head = yes := rfl
  cases yes with
  | false =>
      refine ⟨.ok [sshAgentFailure], [.confirm keyPair info false], rfl, fun c => ?_⟩
      simp only [perform, hget', hhead, Bool.false_eq_true, if_false]
      rfl
  | true =>
      cases hsign : (keyPair.privateKey.sign crates.toOpenssl msg flags).toOption with
      | none =>
          refine ⟨.ok [sshAgentFailure],
            [.confirm keyPair info true, .sign keyPair.privateKey msg flags none], rfl,
            fun c => ?_⟩
          simp only [perform, hget', hhead, if_true, hsign]
          rfl
      | some sig =>
          refine ⟨.ok (sshAgentSignResponse :: writeString sig),
            [.confirm keyPair info true, .sign keyPair.privateKey msg flags (some sig)], rfl,
            fun c => ?_⟩
          simp only [perform, hget', hhead, if_true, hsign]
          rfl

/-- A request uses its own answers, and what comes after them stays as it is and has no effect. -/
theorem handled_withConfirms (crates : Crates) (info : RequestInfo) {w : World} {buf : Bytes}
    {more : List Bool} (h : Consumes w buf more) :
    ∃ (outcome : Outcome Error Bytes) (w' : World) (events : List Event),
      answersIn events = more ∧ ∀ c,
        handled crates info (w.withConfirms (more ++ₛ c)) buf =
          ⟨outcome, w'.withConfirms c, events⟩ := by
  have hnothing (hask : asksConfirmation w buf = false) : more = [] := by
    cases h with
    | nothing => rfl
    | answer yes hasks =>
        rw [hask] at hasks
        cases hasks
  cases hparse : Command.parse buf with
  | err e =>
      rw [hnothing (by rw [asksConfirmation, hparse])]
      refine ⟨.ok [sshAgentFailure], w, [], rfl, fun c => ?_⟩
      rw [handled, hparse]
      rfl
  | panic =>
      rw [hnothing (by rw [asksConfirmation, hparse])]
      refine ⟨.panic, w, [], rfl, fun c => ?_⟩
      rw [handled, hparse]
      rfl
  | ok command =>
  cases command with
  | requestIdentities =>
      rw [hnothing (by rw [asksConfirmation, hparse])]
      refine ⟨identitiesAnswer w.config.keys, w, [], rfl, fun c => ?_⟩
      rw [handled, hparse]
      rfl
  | addIdentity keyPair =>
      rw [hnothing (by rw [asksConfirmation, hparse])]
      -- which case it is depends on the list and on the fate of the save
      by_cases hmem : keyPair.publicKey ∈ w.publicKeys
      · refine ⟨.ok [sshAgentSuccess], w, [], rfl, fun c => ?_⟩
        rw [handled, hparse]
        exact if_pos hmem
      by_cases hsave : w.SaveOk crates keyPair
      · refine ⟨.ok [sshAgentSuccess], w.store crates keyPair, [.save true], rfl, fun c => ?_⟩
        rw [handled, hparse]
        exact (if_neg hmem).trans (if_pos hsave)
      · refine ⟨.ok [sshAgentFailure], w.store crates keyPair, [.save false], rfl, fun c => ?_⟩
        rw [handled, hparse]
        exact (if_neg hmem).trans (if_neg hsave)
  | signRequest publicKey msg flags =>
      cases hget : Agent.getKey w.config publicKey with
      | none =>
          rw [hnothing (by simp only [asksConfirmation, hparse, hget, Option.isSome_none])]
          refine ⟨.ok [sshAgentFailure], w, [], rfl, fun c => ?_⟩
          have hget' : Agent.getKey (w.withConfirms ([] ++ₛ c)).config publicKey = none := hget
          rw [handled, hparse]
          simp only [perform, hget']
          rfl
      | some entry =>
          obtain ⟨yes, rfl⟩ : ∃ yes, more = [yes] := by
            cases h with
            | answer yes hask => exact ⟨yes, rfl⟩
            | nothing hask =>
                simp only [asksConfirmation, hparse, hget, Option.isSome_some] at hask
                cases hask
          obtain ⟨outcome, events, hanswers, hperform⟩ :=
            perform_signRequest_withConfirms crates info yes hget
          refine ⟨outcome, w, events, hanswers, fun c => ?_⟩
          rw [handled, hparse]
          exact hperform c

/-- The same for a request that takes the mutex. -/
theorem lockAndHandle_withConfirms (crates : Crates) {w : World} (call : Call) {more : List Bool}
    (h : Consumes w call.buf more) :
    ∃ (answer : Option Bytes) (w' : World) (poisoned : Bool) (events : List Event),
      answersIn events = more ∧ ∀ c,
        lockAndHandle crates ⟨w.withConfirms (more ++ₛ c), false⟩ call =
          (answer, ⟨w'.withConfirms c, poisoned⟩, events) := by
  obtain ⟨outcome, w', events, hanswers, hhandled⟩ := handled_withConfirms crates call.info h
  have hrequest (c : Stream' Bool) :
      Agent.handleRequest crates call.buf call.info (w.withConfirms (more ++ₛ c)) =
        ⟨outcome, w'.withConfirms c, .request w.config.keys call.buf call.info :: events⟩ := by
    rw [Agent.handleRequest_eq, hhandled]
    rfl
  have hrecorded : answersIn (.request w.config.keys call.buf call.info :: events) = more :=
    hanswers
  cases outcome with
  | ok reply =>
      refine ⟨some reply, w', false, _, hrecorded, fun c => ?_⟩
      rw [lockAndHandle, hrequest]
      rfl
  | err e =>
      refine ⟨none, w', true, _, hrecorded, fun c => ?_⟩
      rw [lockAndHandle, hrequest]
      rfl
  | panic =>
      refine ⟨none, w', true, _, hrecorded, fun c => ?_⟩
      rw [lockAndHandle, hrequest]
      rfl

/-- Where a thread is after its request: it is dead if there is no answer. -/
def phaseAfter : Option Bytes → ThreadPhase
  | some _ => .running
  | none => .dead

/-- A thread that finishes its request does what taking the mutex and handling it does. -/
theorem finish_of_lockAndHandle {crates : Crates} {s : Serving} {t : ThreadId} {call : Call}
    {w : World} {answer : Option Bytes} {mutex : AgentMutex} {events : List Event}
    (hp : s.poisoned = false)
    (h : lockAndHandle crates ⟨w, false⟩ call = (answer, mutex, events)) :
    s.finish crates t call w = { s.setThread t (phaseAfter answer) with
      world := mutex.world
      holder := none
      poisoned := mutex.poisoned } := by
  rw [lockAndHandle] at h
  simp only [Bool.false_eq_true, if_false] at h
  rw [Serving.finish]
  rcases hreq : Agent.handleRequest crates call.buf call.info w with ⟨outcome, w', events'⟩
  rw [hreq] at h
  cases outcome with
  | ok reply =>
      simp only [Prod.mk.injEq] at h
      obtain ⟨rfl, rfl, -⟩ := h
      simp only [phaseAfter, ← hp]
      rfl
  | err e =>
      simp only [Prod.mk.injEq] at h
      obtain ⟨rfl, rfl, -⟩ := h
      rfl
  | panic =>
      simp only [Prod.mk.injEq] at h
      obtain ⟨rfl, rfl, -⟩ := h
      rfl

/-! ## The turns of a run -/

/-- The process is where the turns lead, with the answers, and with whatever answers after them. -/
structure Serving.InTurn (crates : Crates) (w : World) (past : List DialogAct)
    (turns : List MutexTurn) (answers : List Bool) (replies : List (ConnId × Option Bytes))
    (events : List (ConnId × Event)) (s : Serving) : Prop where
  one : s.OneDialog
  /-- The mutex is not poisoned while somebody has it. -/
  unpoisoned : s.holder ≠ none → s.poisoned = false
  asking : ∀ t call answer, s.threads t = .asking call answer →
    asksConfirmation s.world call.buf = true
  /-- Whom a thread describes it has been told. -/
  clients : ∀ t client, (s.threads t).client = some client →
    .thread t (.describe client.1 client.2) ∈ past
  confirms : s.world.confirms = w.confirms
  taken : ∀ c, takeMutexTurns crates (w.withConfirms (answers ++ₛ c)) turns =
    ⟨⟨s.world.withConfirms c, s.poisoned⟩, replies, events⟩
  answered : (confirmedIn events).map Prod.snd = answers
  clicks : clicksIn past = confirmedIn events ++ s.unreceived
  reloads : reloadsIn past = reloadsOf (agentTurns turns)
  calls : ∀ t, receivedBy t past = callsOf t (agentTurns turns) ++ (s.threads t).inFlight
  panics : ∀ t, .describePanics t ∈ turns →
    ∃ sys pid, .thread t (.describe sys pid) ∈ past ∧ sys.describeClient pid = some .panic

theorem inTurn_start (crates : Crates) (w : World) :
    (Serving.start w).InTurn crates w [] [] [] [] [] where
  one := oneDialog_start w
  unpoisoned h := absurd rfl h
  asking t call answer h := by cases h
  clients t client h := by cases h
  confirms := rfl
  taken c := rfl
  answered := rfl
  clicks := rfl
  reloads := rfl
  calls t := rfl
  panics t h := by cases h

theorem clicksIn_concat (past : List DialogAct) (act : DialogAct) :
    clicksIn (past ++ [act]) = clicksIn past ++ clicksIn [act] := List.filterMap_append

theorem reloadsIn_concat (past : List DialogAct) (act : DialogAct) :
    reloadsIn (past ++ [act]) = reloadsIn past ++ reloadsIn [act] := List.filterMap_append

theorem receivedBy_concat (t : ThreadId) (past : List DialogAct) (act : DialogAct) :
    receivedBy t (past ++ [act]) = receivedBy t past ++ receivedBy t [act] :=
  List.filterMap_append

section Unreceived

variable (s : Serving) {t : ThreadId}

theorem unreceived_of_holder {phase : ThreadPhase} (h : s.holder = some (.thread t))
    (hphase : s.threads t = phase) :
    s.unreceived = phase.channel.map fun answer => (t, answer) := by
  rw [Serving.unreceived, h, ← hphase]

variable {s}

theorem unreceived_eq_nil (h : ∀ t, s.holder ≠ some (.thread t)) : s.unreceived = [] := by
  rw [Serving.unreceived]
  split
  · next t hholder => exact absurd hholder (h t)
  · rfl

theorem unreceived_setThread (phase : ThreadPhase) (h : s.holder ≠ some (.thread t)) :
    (s.setThread t phase).unreceived = s.unreceived := by
  rw [Serving.unreceived, Serving.unreceived]
  show (match s.holder with
    | some (.thread t') =>
        (Function.update s.threads t phase t').channel.map fun answer => (t', answer)
    | _ => []) = _
  split
  · next t' hholder =>
      have hne : t' ≠ t := by
        rintro rfl
        exact h hholder
      rw [Function.update_of_ne hne]
  · rfl

end Unreceived

/-- Where no thread has the mutex, no thread asks. -/
theorem asking_of_not_held {s : Serving} (h : s.Exclusive)
    (hnot : ∀ t, s.holder ≠ some (.thread t)) (t : ThreadId) (call : Call) (answer : Option Bool)
    (hasking : s.threads t = .asking call answer) : asksConfirmation s.world call.buf = true := by
  have hholder := h.thread t (by rw [hasking]; exact trivial)
  exact absurd hholder (hnot t)

section Turns

variable {crates : Crates} {w : World} {past : List DialogAct} {turns : List MutexTurn}
  {answers : List Bool} {replies : List (ConnId × Option Bytes)} {events : List (ConnId × Event)}
  {s s' : Serving} {act : DialogAct} {t : ThreadId} {phase : ThreadPhase}

/-! Where only the phase of one thread changes, the others ask and have in flight what they had. -/

theorem asking_update (h : s.InTurn crates w past turns answers replies events)
    (hphase : ∀ call answer, phase = .asking call answer →
      asksConfirmation s.world call.buf = true)
    (c : ThreadId) (call : Call) (answer : Option Bool)
    (hc : Function.update s.threads t phase c = .asking call answer) :
    asksConfirmation s.world call.buf = true := by
  by_cases heq : c = t
  · rw [heq, Function.update_self] at hc
    exact hphase call answer hc
  · rw [Function.update_of_ne heq] at hc
    exact h.asking c call answer hc

theorem inFlight_update
    (hself : (s.threads t).inFlight ++ receivedBy t [act] = phase.inFlight)
    (hothers : ∀ c, c ≠ t → receivedBy c [act] = []) (c : ThreadId) :
    (s.threads c).inFlight ++ receivedBy c [act] =
      (Function.update s.threads t phase c).inFlight := by
  by_cases hc : c = t
  · subst hc
    rw [Function.update_self, hself]
  · rw [Function.update_of_ne hc, hothers c hc, List.append_nil]

theorem clients_update (h : s.InTurn crates w past turns answers replies events)
    (hphase : ∀ client, phase.client = some client →
      .thread t (.describe client.1 client.2) ∈ past ++ [act])
    (c : ThreadId) (client : Desktop × Pid)
    (hc : (Function.update s.threads t phase c).client = some client) :
    .thread c (.describe client.1 client.2) ∈ past ++ [act] := by
  by_cases heq : c = t
  · rw [heq, Function.update_self] at hc
    rw [heq]
    exact hphase client hc
  · rw [Function.update_of_ne heq] at hc
    exact List.mem_append_left _ (h.clients c client hc)

/-- Panics of the past stay in it. -/
theorem panics_concat (h : s.InTurn crates w past turns answers replies events) (t : ThreadId)
    (hmem : .describePanics t ∈ turns) : ∃ sys pid,
      .thread t (.describe sys pid) ∈ past ++ [act] ∧ sys.describeClient pid = some .panic := by
  obtain ⟨sys, pid, hdescribe, hpanic⟩ := h.panics t hmem
  exact ⟨sys, pid, List.mem_append_left _ hdescribe, hpanic⟩

/-- A turn of the agent is no panic of a description. -/
theorem panics_concat_agent (h : s.InTurn crates w past turns answers replies events)
    (turn : Turn) (t : ThreadId) (hmem : .describePanics t ∈ turns ++ [.agent turn]) :
    ∃ sys pid, .thread t (.describe sys pid) ∈ past ++ [act] ∧
      sys.describeClient pid = some .panic := by
  rcases List.mem_append.1 hmem with hmem | hmem
  · exact panics_concat h t hmem
  · simp at hmem

/-- A step that takes no turn. -/
theorem inTurn_of_same (h : s.InTurn crates w past turns answers replies events)
    (hone : s'.OneDialog) (hworld : s'.world = s.world) (hpoisoned : s'.poisoned = s.poisoned)
    (hunpoisoned : s'.holder ≠ none → s.poisoned = false)
    (hasking : ∀ t call answer, s'.threads t = .asking call answer →
      asksConfirmation s.world call.buf = true)
    (hclients : ∀ t client, (s'.threads t).client = some client →
      .thread t (.describe client.1 client.2) ∈ past ++ [act])
    (hclicks : s.unreceived ++ clicksIn [act] = s'.unreceived) (hreloads : reloadsIn [act] = [])
    (hcalls : ∀ t, (s.threads t).inFlight ++ receivedBy t [act] = (s'.threads t).inFlight) :
    s'.InTurn crates w (past ++ [act]) turns answers replies events where
  one := hone
  unpoisoned hheld := by
    rw [hpoisoned]
    exact hunpoisoned hheld
  asking t call answer hphase := by
    rw [hworld]
    exact hasking t call answer hphase
  clients := hclients
  confirms := by
    rw [hworld]
    exact h.confirms
  taken c := by
    rw [hworld, hpoisoned]
    exact h.taken c
  answered := h.answered
  panics := panics_concat h
  clicks := by
    rw [clicksIn_concat, h.clicks, List.append_assoc, hclicks]
  reloads := by
    rw [reloadsIn_concat, hreloads, List.append_nil]
    exact h.reloads
  calls t := by
    rw [receivedBy_concat, h.calls, List.append_assoc, hcalls]

/-- The mutex is released after a reload. -/
theorem inTurn_of_reload {fault : LoadFault} {config : Config}
    (h : s.InTurn crates w past turns answers replies events) (hone : s'.OneDialog)
    (hconfig : (Config.reload crates fault s.world.file s.world.config).2 = config)
    (hworld : s'.world = { s.world with config }) (hpoisoned : s'.poisoned = s.poisoned)
    (hunpoisoned : s.poisoned = false) (hnot : ∀ t, s.holder ≠ some (.thread t))
    (hnot' : ∀ t, s'.holder ≠ some (.thread t)) (hthreads : s'.threads = s.threads) :
    s'.InTurn crates w (past ++ [.main (.reload fault)]) (turns ++ [.agent (.reload fault)]) answers
      replies events where
  one := hone
  unpoisoned _ := by rw [hpoisoned, hunpoisoned]
  asking := asking_of_not_held hone.exclusive hnot'
  clients t client hclient := by
    rw [hthreads] at hclient
    exact List.mem_append_left _ (h.clients t client hclient)
  confirms := by
    rw [hworld]
    exact h.confirms
  taken c := by
    rw [takeMutexTurns_concat, h.taken c, hworld, hpoisoned, ← hconfig]
    rfl
  answered := h.answered
  panics := panics_concat_agent h _
  clicks := by
    rw [clicksIn_concat, h.clicks, unreceived_eq_nil hnot, unreceived_eq_nil hnot']
    exact List.append_nil _
  reloads := by
    rw [reloadsIn_concat, h.reloads, agentTurns_concat, reloadsOf, reloadsOf,
      List.filterMap_append]
    rfl
  calls t := by
    rw [receivedBy_concat, h.calls, agentTurns_concat, callsOf_concat_reload, hthreads]
    exact List.append_nil _

/-- A thread finishes its request and releases the mutex. -/
theorem inTurn_of_finish (t : ThreadId) (call : Call) (more : List Bool) (act : ThreadAct)
    (h : s.InTurn crates w past turns answers replies events)
    (hone : (s.finish crates t call
      (s.world.withConfirms (more ++ₛ s.world.confirms))).OneDialog)
    (hconsumes : Consumes s.world call.buf more) (hheld : (s.threads t).Holds)
    (hflight : (s.threads t).inFlight = [call]) (hchannel : (s.threads t).channel = more)
    (hact : receivedBy t [.thread t act] = []) :
    ∃ replies' events', (s.finish crates t call
        (s.world.withConfirms (more ++ₛ s.world.confirms))).InTurn crates w
      (past ++ [.thread t act]) (turns ++ [.agent (.request t call)]) (answers ++ more) replies'
      events' := by
  obtain ⟨answer, w', poisoned, recorded, hrecorded, hlock⟩ :=
    lockAndHandle_withConfirms crates call hconsumes
  have hholder := h.one.exclusive.thread t hheld
  have hp := h.unpoisoned (by simp [hholder])
  rw [finish_of_lockAndHandle hp (hlock s.world.confirms)] at hone ⊢
  -- the calls of other threads read nothing in this step either
  have hreceived (c : ThreadId) : receivedBy c [.thread t act] = [] := by
    cases act with
    | receive call' =>
        have hself : receivedBy t [.thread t (.receive call')] = [call'] := by simp [receivedBy]
        rw [hself] at hact
        cases hact
    | _ => rfl
  have hfree : ∀ c, (none : Option Owner) ≠ some (.thread c) := by simp
  refine ⟨replies ++ [(t, answer)], events ++ recorded.map fun event => (t, event), hone,
    fun hne => absurd rfl hne, asking_of_not_held hone.exclusive hfree, ?_, h.confirms, ?_, ?_, ?_,
    ?_, ?_, panics_concat_agent h _⟩
  · refine clients_update h fun client hclient => ?_
    cases answer <;> cases hclient
  · intro c
    rw [Stream'.append_append_stream, takeMutexTurns_concat, h.taken, hp, takeMutexTurn, takeTurn]
    simp only [hlock]
    rfl
  · rw [confirmedIn_concat_map, List.map_append, h.answered, hrecorded, List.map_map]
    congr 1
    exact List.map_id more
  · rw [clicksIn_concat, h.clicks, unreceived_of_holder s hholder rfl, hchannel,
      unreceived_eq_nil hfree,
      confirmedIn_concat_map, hrecorded]
    rfl
  · rw [reloadsIn_concat, h.reloads, agentTurns_concat, reloadsOf_concat_request]
    exact List.append_nil _
  · intro c
    rw [receivedBy_concat, h.calls, hreceived, List.append_nil, agentTurns_concat,
      callsOf_concat_request]
    show _ = _ ++ (Function.update s.threads t (phaseAfter answer) c).inFlight
    by_cases hc : c = t
    · subst hc
      rw [if_pos rfl, Function.update_self, hflight]
      cases answer <;> exact (List.append_nil _).symm
    · rw [if_neg (Ne.symm hc), Function.update_of_ne hc]

/-- A thread panics at a poisoned mutex, with a request or without one. -/
theorem inTurn_of_die {t : ThreadId} (h : s.InTurn crates w past turns answers replies events)
    (hone : (s.setThread t .dead).OneDialog)
    (hwaits : (∃ sys pid, s.threads t = .lockingDescribe sys pid) ∨
      ∃ call, s.threads t = .locking call)
    (hfree : s.holder = none) (hp : s.poisoned = true) :
    ∃ turns' replies', (s.setThread t .dead).InTurn crates w (past ++ [.thread t .lock]) turns'
      answers replies' events := by
  have hnot (c : ThreadId) : s.holder ≠ some (.thread c) := by simp [hfree]
  have hclicks : s.unreceived ++ clicksIn [.thread t .lock] = (s.setThread t .dead).unreceived := by
    rw [unreceived_eq_nil hnot, unreceived_setThread .dead (hnot t), unreceived_eq_nil hnot]
    rfl
  have hheld : (s.setThread t .dead).holder ≠ none → s.poisoned = false :=
    fun hne => absurd hfree hne
  have hclients (c : ThreadId) (client : Desktop × Pid)
      (hclient : ((s.setThread t .dead).threads c).client = some client) :
      .thread c (.describe client.1 client.2) ∈ past ++ [.thread t .lock] := by
    have hdead (client : Desktop × Pid) (hnone : ThreadPhase.dead.client = some client) :
        .thread t (.describe client.1 client.2) ∈ past ++ [.thread t .lock] := by cases hnone
    exact clients_update h hdead c client hclient
  rcases hwaits with ⟨sys, pid, hphase⟩ | ⟨call, hphase⟩
  · refine ⟨turns, replies, inTurn_of_same h hone rfl rfl hheld ?_ hclients hclicks rfl ?_⟩
    · exact asking_of_not_held hone.exclusive hnot
    · exact inFlight_update (by rw [hphase]; rfl) fun _ _ => rfl
  -- a request that finds the mutex poisoned has its turn, without an answer
  · refine ⟨turns ++ [.agent (.request t call)], replies ++ [(t, none)], hone, hheld,
      asking_of_not_held hone.exclusive hnot, hclients, h.confirms, ?_, h.answered, ?_, ?_, ?_,
      panics_concat_agent h _⟩
    · intro c
      rw [takeMutexTurns_concat, h.taken c, takeMutexTurn, takeTurn, lockAndHandle, hp]
      simp only [if_true, List.map_nil, List.append_nil]
      rw [← hp]
      rfl
    · rw [clicksIn_concat, h.clicks, List.append_assoc, hclicks]
    · rw [reloadsIn_concat, h.reloads, agentTurns_concat, reloadsOf_concat_request]
      exact List.append_nil _
    · intro c
      rw [receivedBy_concat, h.calls, agentTurns_concat, callsOf_concat_request]
      show _ ++ [] = _ ++ (Function.update s.threads t .dead c).inFlight
      rw [List.append_nil]
      by_cases hc : c = t
      · subst hc
        rw [if_pos rfl, Function.update_self, hphase]
        exact (List.append_nil _).symm
      · rw [if_neg (Ne.symm hc), Function.update_of_ne hc]

/-- A description panics, and the mutex is poisoned. -/
theorem inTurn_of_panicDescribe {t : ThreadId} {sys : Desktop} {pid : Pid}
    (h : s.InTurn crates w past turns answers replies events)
    (hone : ({ s.setThread t .dead with holder := none, poisoned := true } : Serving).OneDialog)
    (hphase : s.threads t = .describing sys pid) (hpanic : sys.describeClient pid = some .panic) :
    ({ s.setThread t .dead with holder := none, poisoned := true } : Serving).InTurn crates w
      (past ++ [.thread t .finishDescribe]) (turns ++ [.describePanics t]) answers replies
      events := by
  have hholder := h.one.exclusive.thread t (by rw [hphase]; exact trivial)
  have hfree : ∀ c, (none : Option Owner) ≠ some (.thread c) := by simp
  have hagent : agentTurns (turns ++ [.describePanics t]) = agentTurns turns := by
    rw [agentTurns, List.filterMap_append]
    exact List.append_nil _
  refine ⟨hone, fun hne => absurd rfl hne, asking_of_not_held hone.exclusive hfree, ?_, h.confirms,
    ?_, h.answered, ?_, ?_, ?_, ?_⟩
  · exact clients_update h fun _ => nofun
  · intro c
    rw [takeMutexTurns_concat, h.taken c]
    rfl
  · rw [clicksIn_concat, h.clicks, unreceived_of_holder s hholder hphase, unreceived_eq_nil hfree]
    exact List.append_nil _
  · rw [reloadsIn_concat, h.reloads, hagent]
    exact List.append_nil _
  · intro c
    rw [receivedBy_concat, h.calls, hagent, List.append_assoc]
    congr 1
    exact inFlight_update (by rw [hphase]; rfl) (fun _ _ => rfl) c
  · intro c hmem
    rcases List.mem_append.1 hmem with hmem | hmem
    · exact panics_concat h c hmem
    · simp only [List.mem_singleton, MutexTurn.describePanics.injEq] at hmem
      subst hmem
      have hdescribed := h.clients c (sys, pid) (by rw [hphase]; rfl)
      exact ⟨sys, pid, List.mem_append_left _ hdescribed, hpanic⟩

theorem inTurn_of_threadDoes {t : ThreadId} {act : ThreadAct}
    (h : s.InTurn crates w past turns answers replies events) (hone : s'.OneDialog)
    (hdoes : ThreadDoes crates s t act s') :
    ∃ turns' answers' replies' events', s'.InTurn crates w (past ++ [.thread t act]) turns' answers'
      replies' events' := by
  have hheldBy {phase : ThreadPhase} (hphase : s.threads t = phase) (hholds : phase.Holds) :
      s.holder = some (.thread t) := h.one.exclusive.thread t (by rwa [hphase])
  have hnotHolder {phase : ThreadPhase} (hphase : s.threads t = phase) (hout : ¬ phase.Holds) :
      s.holder ≠ some (.thread t) := by
    intro hholder
    have hholds := h.one.heldByThread t hholder
    rw [hphase] at hholds
    exact hout hholds
  have hfree : ∀ c, (none : Option Owner) ≠ some (.thread c) := by simp
  cases hdoes with
  | @describe sys pid hphase =>
      refine ⟨turns, answers, replies, events, inTurn_of_same h hone rfl rfl h.unpoisoned ?_ ?_ ?_
        rfl ?_⟩
      · exact asking_update h (by simp)
      · refine clients_update h fun client hclient => ?_
        cases hclient
        exact List.mem_append_right _ List.mem_cons_self
      · rw [unreceived_setThread _ (hnotHolder hphase not_false)]
        exact List.append_nil _
      · exact inFlight_update (by rw [hphase]; rfl) fun _ _ => rfl
  | @receive call hphase =>
      refine ⟨turns, answers, replies, events, inTurn_of_same h hone rfl rfl h.unpoisoned ?_ ?_ ?_
        rfl ?_⟩
      · exact asking_update h (by simp)
      · exact clients_update h fun _ => nofun
      · rw [unreceived_setThread _ (hnotHolder hphase not_false)]
        exact List.append_nil _
      · apply inFlight_update
        · rw [hphase]
          simp [receivedBy, ThreadPhase.inFlight]
        · intro c hc
          simp [receivedBy, Ne.symm hc]
  | die hwaits hholder hp =>
      obtain ⟨turns', replies', h'⟩ := inTurn_of_die h hone hwaits hholder hp
      exact ⟨turns', answers, replies', events, h'⟩
  | @lockDescribe sys pid hphase hholder hp =>
      refine ⟨turns, answers, replies, events, inTurn_of_same h hone rfl rfl (fun _ => hp) ?_ ?_ ?_
        rfl ?_⟩
      · exact asking_update h (by simp)
      · refine clients_update h fun client hclient => ?_
        exact List.mem_append_left _ (h.clients t client (by rw [hphase]; exact hclient))
      · rw [unreceived_eq_nil (by simp [hholder])]
        exact (unreceived_of_holder { s.setThread t (.describing sys pid) with
          holder := some (.thread t) } rfl (Function.update_self t _ _)).symm
      · exact inFlight_update (by rw [hphase]; rfl) fun _ _ => rfl
  | @lock call hphase hholder hp =>
      refine ⟨turns, answers, replies, events, inTurn_of_same h hone rfl rfl (fun _ => hp) ?_ ?_ ?_
        rfl ?_⟩
      · exact asking_update h (by simp)
      · exact clients_update h fun _ => nofun
      · rw [unreceived_eq_nil (by simp [hholder])]
        exact (unreceived_of_holder { s.setThread t (.handling call) with
          holder := some (.thread t) } rfl (Function.update_self t _ _)).symm
      · exact inFlight_update (by rw [hphase]; rfl) fun _ _ => rfl
  | @finishDescribe sys pid hphase hends =>
      refine ⟨turns, answers, replies, events, inTurn_of_same h hone rfl rfl
        (fun hne => absurd rfl hne) ?_ ?_ ?_ rfl ?_⟩
      · exact asking_update h (by simp)
      · exact clients_update h fun _ => nofun
      · rw [unreceived_of_holder s (hheldBy hphase trivial) hphase, unreceived_eq_nil hfree]
        rfl
      · exact inFlight_update (by rw [hphase]; rfl) fun _ _ => rfl
  | @panicDescribe sys pid hphase hpanic =>
      exact ⟨_, _, _, _, inTurn_of_panicDescribe h hone hphase hpanic⟩
  | @ask call hphase hask =>
      have hholder := hheldBy hphase trivial
      refine ⟨turns, answers, replies, events, inTurn_of_same h hone rfl rfl h.unpoisoned ?_ ?_ ?_
        rfl ?_⟩
      · refine asking_update h fun call' answer heq => ?_
        rw [ThreadPhase.asking.injEq] at heq
        rw [← heq.1]
        exact hask
      · exact clients_update h fun _ => nofun
      · rw [unreceived_of_holder s hholder hphase]
        exact (unreceived_of_holder { s.setThread t (.asking call none) with
          posted := s.posted ++ [t] } hholder (Function.update_self t _ _)).symm
      · exact inFlight_update (by rw [hphase]; rfl) fun _ _ => rfl
  | @handle call hphase hask =>
      have hfinish := inTurn_of_finish t call [] .handle h hone (.nothing hask)
        (by rw [hphase]; exact trivial) (by rw [hphase]; rfl) (by rw [hphase]; rfl) rfl
      obtain ⟨replies', events', h'⟩ := hfinish
      exact ⟨_, _, replies', events', h'⟩
  | @receiveAnswer call answer hphase =>
      have hfinish := inTurn_of_finish t call [answer] .receiveAnswer h hone
        (.answer answer (h.asking t call _ hphase))
        (by rw [hphase]; exact trivial) (by rw [hphase]; rfl) (by rw [hphase]; rfl) rfl
      obtain ⟨replies', events', h'⟩ := hfinish
      exact ⟨_, _, replies', events', h'⟩

theorem inTurn_of_mainDoes {act : MainAct}
    (h : s.InTurn crates w past turns answers replies events) (hone : s'.OneDialog)
    (hdoes : MainDoes crates s act s') :
    ∃ turns' replies' events', s'.InTurn crates w (past ++ [.main act]) turns' answers
      replies' events' := by
  have hcalls (t : ThreadId) : (s.threads t).inFlight ++ receivedBy t [.main act] =
      (s.threads t).inFlight := List.append_nil _
  -- the main thread does something else than to answer a dialog or to reload
  have hsame (hworld : s'.world = s.world) (hpoisoned : s'.poisoned = s.poisoned)
      (hthreads : s'.threads = s.threads) (hunpoisoned : s'.holder ≠ none → s.poisoned = false)
      (hclicks : s.unreceived ++ clicksIn [.main act] = s'.unreceived)
      (hreloads : reloadsIn [.main act] = []) :
      ∃ turns' replies' events', s'.InTurn crates w (past ++ [.main act]) turns' answers replies'
        events' := by
    refine ⟨turns, replies, events,
      inTurn_of_same h hone hworld hpoisoned hunpoisoned ?_ ?_ hclicks hreloads ?_⟩
    · rw [hthreads]
      exact h.asking
    · rw [hthreads]
      exact fun t client hclient => List.mem_append_left _ (h.clients t client hclient)
    · rw [hthreads]
      exact hcalls
  have hmain (hholder : s.holder = some .main) (t : ThreadId) : s.holder ≠ some (.thread t) := by
    simp [hholder]
  have hfree : ∀ c, (none : Option Owner) ≠ some (.thread c) := by simp
  cases hdoes with
  | showConfirmation hposted hloop =>
      exact hsame rfl rfl rfl h.unpoisoned (List.append_nil _) rfl
  | dropConfirmation hpumps hloop => exact hsame rfl rfl rfl h.unpoisoned (List.append_nil _) rfl
  | @click t answer hpumps hmem hclosing =>
      obtain ⟨-, -, hholder, call, hasking⟩ := click_cases h.one hmem
      have hanswered : (s.threads t).answered answer = .asking call (some answer) := by
        rw [hasking]
        rfl
      refine ⟨turns, replies, events, inTurn_of_same h hone rfl rfl h.unpoisoned ?_ ?_ ?_ rfl ?_⟩
      · refine asking_update h fun call' answer' heq => ?_
        rw [hanswered, ThreadPhase.asking.injEq] at heq
        rw [← heq.1]
        exact h.asking t call none hasking
      · refine clients_update h fun client hclient => ?_
        rw [hanswered] at hclient
        cases hclient
      · rw [unreceived_of_holder s hholder hasking]
        have hself : Function.update s.threads t ((s.threads t).answered answer) t =
            .asking call (some answer) := by rw [Function.update_self, hanswered]
        exact (unreceived_of_holder { s with
          dialogs := s.dialogs.erase t
          closing := some t
          threads := Function.update s.threads t ((s.threads t).answered answer) } hholder
          hself).symm
      · exact inFlight_update (by rw [hanswered, hasking]; rfl) fun _ _ => rfl
  | @menu act phase quitPosted hact hphase =>
      cases act with
      | click t answer => exact absurd hact not_false
      | reload fault => exact absurd hact not_false
      | _ => exact hsame rfl rfl rfl h.unpoisoned (List.append_nil _) rfl
  | chooseReload hphase => exact hsame rfl rfl rfl h.unpoisoned (List.append_nil _) rfl
  | lockReload hwaits hholder hp =>
      refine hsame rfl rfl rfl (fun _ => hp) ?_ rfl
      rw [unreceived_eq_nil (by simp [hholder]), unreceived_eq_nil (by simp)]
      rfl
  | panic hwaits hholder hp => exact hsame rfl rfl rfl h.unpoisoned (List.append_nil _) rfl
  | @reloaded fault config hreloading hreload =>
      have hholder := h.one.exclusive.main (Or.inl hreloading)
      have hconfig : (Config.reload crates fault s.world.file s.world.config).2 = config := by
        rw [hreload]
      exact ⟨_, _, _, inTurn_of_reload h hone hconfig rfl rfl (h.unpoisoned (by simp [hholder]))
        (hmain hholder) hfree rfl⟩
  | @reloadFails fault hreloading hfails =>
      have hholder := h.one.exclusive.main (Or.inl hreloading)
      have hconfig : (Config.reload crates fault s.world.file s.world.config).2 =
          s.world.config := by
        rw [Config.reload] at hfails ⊢
        cases hload : loadConfig crates fault s.world.file with
        | ok config' =>
            rw [hload] at hfails
            exact absurd rfl hfails
        | err e => rfl
        | panic => rfl
      exact ⟨_, _, _, inTurn_of_reload h hone hconfig rfl rfl (h.unpoisoned (by simp [hholder]))
        (hmain hholder) (hmain hholder) rfl⟩
  | closeErrorBox herror =>
      have hholder := h.one.exclusive.main (Or.inr (Or.inl herror))
      refine hsame rfl rfl rfl (fun hne => absurd rfl hne) ?_ rfl
      rw [unreceived_eq_nil (hmain hholder), unreceived_eq_nil hfree]
      rfl
  | quit hloop hposted => exact hsame rfl rfl rfl h.unpoisoned (List.append_nil _) rfl
  | destroyWindow hclosing => exact hsame rfl rfl rfl h.unpoisoned (List.append_nil _) rfl

end Turns

theorem inTurn_step {crates : Crates} {role : ThreadId → ThreadRole} {w : World}
    {past : List DialogAct} {s s' : Serving} {act : DialogAct}
    (h : ∃ turns answers replies events, s.InTurn crates w past turns answers replies events)
    (hstep : (dialogMachine crates role).step s act = some s') :
    ∃ turns answers replies events,
      s'.InTurn crates w (past ++ [act]) turns answers replies events := by
  obtain ⟨turns, answers, replies, events, h⟩ := h
  have hone := oneDialog_step h.one hstep
  obtain ⟨-, hdoes⟩ := does_of_step hstep
  cases act with
  | thread t act => exact inTurn_of_threadDoes h hone hdoes
  | main act =>
      obtain ⟨turns', replies', events', h'⟩ := inTurn_of_mainDoes h hone hdoes
      exact ⟨turns', answers, replies', events', h'⟩

/-- The run with the actions `acts` to `s` and the turns with the answers come to the same. -/
structure SameAsTurns (crates : Crates) (w : World) (acts : List DialogAct) (s : Serving)
    (turns : List MutexTurn) (answers : List Bool) (taken : Taken) : Prop where
  takes : takeMutexTurns crates (w.withConfirms (answers ++ₛ w.confirms)) turns = taken
  mutex : taken.mutex = ⟨s.world, s.poisoned⟩
  answered : (confirmedIn taken.events).map Prod.snd = answers
  clicks : clicksIn acts = confirmedIn taken.events ++ s.unreceived
  reloads : reloadsIn acts = reloadsOf (agentTurns turns)
  calls : ∀ t, receivedBy t acts = callsOf t (agentTurns turns) ++ (s.threads t).inFlight
  panics : ∀ t, .describePanics t ∈ turns →
    ∃ sys pid, .thread t (.describe sys pid) ∈ acts ∧ sys.describeClient pid = some .panic
  /-- Where no description panics, these are turns of the agent of `Order`. -/
  agent : (∀ t sys pid, .thread t (.describe sys pid) ∈ acts →
      sys.describeClient pid ≠ some .panic) →
    takeTurns crates (w.withConfirms (answers ++ₛ w.confirms)) (agentTurns turns) = taken

/-- **A run with dialogs is a sequence of turns.** Whatever the threads, the menu and the user do,
there is an order of the requests, the reloads and the descriptions that panic in which an agent
that finds the answers ready and takes them one after the other gets to the same keys, file and
mutex. The answers that it uses are the clicks in their order, each for a request of the thread
whose dialog was clicked, but for the last click if its thread has not received it yet. The reloads
are those of the menu in their order, and the requests of a thread are those that it read, but for
the one in flight. -/
theorem dialog_takes_turns (crates : Crates) (role : ThreadId → ThreadRole) (w : World)
    (acts : List DialogAct) (s : Serving)
    (hrun : (dialogMachine crates role).run (Serving.start w) acts = some s) :
    ∃ turns answers taken, SameAsTurns crates w acts s turns answers taken := by
  have hall := Machine.run_invariant_past_nil
    (I := fun past s => ∃ turns answers replies events,
      s.InTurn crates w past turns answers replies events)
    (fun _ _ _ _ h hs => inTurn_step h hs) acts ⟨[], [], [], [], inTurn_start crates w⟩ hrun
  obtain ⟨turns, answers, replies, events, h⟩ := hall
  refine ⟨turns, answers, _, rfl, ?_, ?_, ?_, h.reloads, h.calls, h.panics, ?_⟩
  · rw [h.taken, ← h.confirms]
    rfl
  · rw [h.taken]
    exact h.answered
  · rw [h.taken]
    exact h.clicks
  · intro hnopanic
    refine (takeMutexTurns_of_agent crates _ fun t hmem => ?_).symm
    obtain ⟨sys, pid, hdescribe, hpanic⟩ := h.panics t hmem
    exact hnopanic t sys pid hdescribe hpanic

/-- A client stores a key, asks for a signature with it, and the user allows it. -/
theorem dialog_takes_turns_asking :
    ∃ turns answers taken, (confirmedIn taken.events).map Prod.snd = answers ∧
      [(0, true)] = confirmedIn taken.events ∧
      takeMutexTurns Reference.crates ((emptyWorld true .none).withConfirms
        (answers ++ₛ (emptyWorld true .none).confirms)) turns = taken := by
  have hreceived : ((dialogMachine Reference.crates fun _ => .connection).run
      (Serving.start (emptyWorld true .none))
        (askingRun ++ [.main (.click 0 true), .thread 0 .receiveAnswer])).any
        (fun s => decide (s.holder = none)) = true := by decide +kernel
  obtain ⟨s, hs, hfree⟩ := (Option.any_eq_true _ _).1 hreceived
  obtain ⟨turns, answers, taken, h⟩ := dialog_takes_turns Reference.crates (fun _ => .connection)
    (emptyWorld true .none) _ s hs
  have hnone : s.unreceived = [] := unreceived_eq_nil (by simp [of_decide_eq_true hfree])
  refine ⟨turns, answers, taken, h.answered, ?_, h.takes⟩
  have hclicks := h.clicks
  rw [hnone, List.append_nil] at hclicks
  exact hclicks

end SshKeys
