import SshKeys.Describe
import Mathlib.Logic.Function.Basic

/-!
# The listener of the named pipe

The loop of `listen_named_pipe` between the clients that open and close the pipe, after
`platform/win/pipe.rs`. The loop makes a pipe instance, waits until a client is connected to it,
finds out who the client is, and starts a thread that serves the instance. A client can open the
instance as soon as it exists; one that comes before the wait makes `ConnectNamedPipe` return zero
with an error code that says so, and the loop takes every zero for a failure. Who the client is the
loop finds out under the mutex of the agent, which may panic and may never come to its end.

Creating instances and threads succeeds here. `listener_survives_iff` says which orders of events
the listener survives.
-/

set_option autoImplicit false

namespace SshKeys

open Lib

/-! ## Errors of the system -/

/-- `ERROR_PIPE_CONNECTED`: a client is there already. -/
def errorPipeConnected : Nat := 535

/-- `ERROR_NO_DATA`: a client was there and has closed the pipe. -/
def errorNoData : Nat := 232

/-- `format_error`. The system's message for a code ends with a line break of two characters. -/
def formatError (formatMessage : Nat → String) (err : Nat) : Outcome Error Unit :=
  if err = 0 then .ok ()
  else .err (.new ("(win32) " ++ String.ofList (formatMessage err).toList.dropLast.dropLast))

/-- `check_error`, where `GetLastError` returns `lastError`. -/
def checkError (formatMessage : Nat → String) (lastError : Nat) : Outcome Error Unit :=
  formatError formatMessage lastError

/-! ## The loop and its clients -/

/-- The number of a client of the pipe. -/
abbrev ClientId := Nat

/-- What a client has done with the pipe. -/
inductive PipeClient where
  | absent
  | connected
  | closed
  deriving DecidableEq

/-- Where the loop is. -/
inductive ListenPhase where
  | creating
  /-- The instance exists, and `ConnectNamedPipe` is not called yet. -/
  | created
  /-- In `ConnectNamedPipe`. -/
  | connecting
  /-- A client is connected, and `collect_requester_info` runs under the agent's mutex. -/
  | describing
  /-- About to start the thread of the connection. -/
  | spawning
  /-- `listen_named_pipe` has returned an error. -/
  | returned (e : Error)
  /-- The error has been shown, and the process has ended with it. -/
  | exited
  | panicked
  /-- The mutex is waited for, or the client walked up from, for ever. -/
  | stuck
  deriving DecidableEq

/-- The listener's thread, the clients of the pipe, and the threads that serve them. -/
structure PipeListener where
  phase : ListenPhase
  /-- The client of the loop's instance. -/
  peer : Option ClientId
  clients : ClientId → PipeClient
  /-- How many threads have been started for a client. -/
  handlers : ClientId → Nat

/-- Before the first instance. -/
def PipeListener.start : PipeListener where
  phase := .creating
  peer := none
  clients _ := .absent
  handlers _ := 0

/-- What the listener and the clients do. -/
inductive PipeAct where
  /-- A client opens the pipe. -/
  | connect (c : ClientId)
  | close (c : ClientId)
  /-- `CreateNamedPipeA` -/
  | createPipe
  /-- The loop calls `ConnectNamedPipe`. -/
  | connectPipe
  /-- The agent is locked and the client described. This is the mutex that the loop meets, and what
  the system says about its processes and about the id of the client's. -/
  | describe (mutex : Guarded) (sys : Desktop) (processId : Option Pid)
  /-- `std::thread::spawn` -/
  | spawn
  /-- `show_error` and `exit` in `listener`. -/
  | exit

namespace PipeListener

/-- A client opens the free instance; a loop that waits for one goes on. -/
def connect (s : PipeListener) (c : ClientId) : Option PipeListener :=
  match s.clients c, s.peer, s.phase with
  | .absent, none, .created =>
      some { s with peer := some c, clients := Function.update s.clients c .connected }
  | .absent, none, .connecting =>
      some {
        s with
        phase := .describing
        peer := some c
        clients := Function.update s.clients c .connected }
  | _, _, _ => none

/-- A client that is connected closes its end. -/
def close (s : PipeListener) (c : ClientId) : Option PipeListener :=
  if s.clients c = .connected then
    some { s with clients := Function.update s.clients c .closed }
  else none

/-- The last error after a `ConnectNamedPipe` that met the client `c`. -/
def lastError (s : PipeListener) (c : ClientId) : Nat :=
  if s.clients c = .closed then errorNoData else errorPipeConnected

/-- `ConnectNamedPipe` waits for a client, or returns zero if one came before. -/
def connectPipe (formatMessage : Nat → String) (s : PipeListener) : Option PipeListener :=
  if s.phase = .created then
    match s.peer with
    | none => some { s with phase := .connecting }
    | some c =>
        match checkError formatMessage (s.lastError c) with
        | .ok () => some { s with phase := .describing }
        | .err e => some { s with phase := .returned (.wrap "listen_named_pipe" e) }
        | .panic => some { s with phase := .panicked }
  else none

/-- The requester of a connection, and no requester if `GetNamedPipeClientProcessId` fails. -/
def requester (mutex : Guarded) (sys : Desktop) : Option Pid → Requested
  | none => .found none
  | some pid => mutex.requester sys pid

/-- A requester that is found, or known not to be found, is all that the loop waits for. -/
def describe (s : PipeListener) (mutex : Guarded) (sys : Desktop) (processId : Option Pid) :
    Option PipeListener :=
  if s.phase = .describing then
    match requester mutex sys processId with
    | .found _ => some { s with phase := .spawning }
    | .unwound _ => some { s with phase := .panicked }
    | .never => some { s with phase := .stuck }
  else none

/-- The thread serves the instance, and the loop goes on without it. -/
def spawn (s : PipeListener) : Option PipeListener :=
  match s.phase, s.peer with
  | .spawning, some c =>
      some {
        s with
        phase := .creating
        peer := none
        handlers := Function.update s.handlers c (s.handlers c + 1) }
  | _, _ => none

end PipeListener

/-- The loop of `listen_named_pipe` and its clients, in any order. -/
def pipeMachine (formatMessage : Nat → String) : Machine PipeListener PipeAct where
  step s act :=
    match act with
    | .connect c => s.connect c
    | .close c => s.close c
    | .createPipe => if s.phase = .creating then some { s with phase := .created } else none
    | .connectPipe => s.connectPipe formatMessage
    | .describe mutex sys processId => s.describe mutex sys processId
    | .spawn => s.spawn
    | .exit =>
        match s.phase with
        | .returned _ => some { s with phase := .exited }
        | _ => none

/-- The loop goes on. -/
def ListenPhase.Runs : ListenPhase → Prop
  | .returned _ => False
  | .exited => False
  | .panicked => False
  | .stuck => False
  | _ => True

/-- The loop goes on, no client has two threads, and every connected client has its thread or is the
one that the loop is with. -/
structure Survives (s : PipeListener) : Prop where
  runs : s.phase.Runs
  once : ∀ c, s.handlers c ≤ 1
  served : ∀ c, s.clients c = .connected → s.handlers c = 1 ∨ s.peer = some c

/-- A client with a process id is met with a usable mutex, and can be described. -/
def CanDescribe (mutex : Guarded) (sys : Desktop) (processId : Option Pid) : Prop :=
  ∀ pid, processId = some pid → mutex.Usable ∧ sys.Describes pid

/-- No client has opened the instance before the loop waits for one, and the client that has come
can be described. -/
def Timely (s : PipeListener) : PipeAct → Prop
  | .connectPipe => s.peer = none
  | .describe mutex sys processId => CanDescribe mutex sys processId
  | _ => True

/-! ## What a step does -/

/-- Every code that a missed client leaves is an error. -/
theorem checkError_lastError (formatMessage : Nat → String) (s : PipeListener) (c : ClientId) :
    ∃ e, checkError formatMessage (s.lastError c) = .err e := by
  have hne : s.lastError c ≠ 0 := by
    rw [PipeListener.lastError]
    split <;> decide
  exact ⟨_, if_neg hne⟩

theorem connect_eq_some {s s' : PipeListener} {c : ClientId} (h : s.connect c = some s') :
    s.clients c = .absent ∧ s.peer = none ∧
      s'.peer = some c ∧ s'.clients = Function.update s.clients c .connected ∧
      s'.handlers = s.handlers ∧
      (s.phase = .created ∧ s'.phase = .created ∨
        s.phase = .connecting ∧ s'.phase = .describing) := by
  rw [PipeListener.connect] at h
  split at h
  · next hclient hpeer hphase =>
      rw [Option.some.injEq] at h
      subst h
      exact ⟨hclient, hpeer, rfl, rfl, rfl, Or.inl ⟨hphase, hphase⟩⟩
  · next hclient hpeer hphase =>
      rw [Option.some.injEq] at h
      subst h
      exact ⟨hclient, hpeer, rfl, rfl, rfl, Or.inr ⟨hphase, rfl⟩⟩
  · cases h

theorem connectPipe_eq_some {formatMessage : Nat → String} {s s' : PipeListener}
    (h : s.connectPipe formatMessage = some s') :
    s.phase = .created ∧
      (s.peer = none ∧ s' = { s with phase := .connecting } ∨
        s.peer ≠ none ∧ ∃ e, s' = { s with phase := .returned e }) := by
  rw [PipeListener.connectPipe] at h
  split at h
  · next hphase =>
      refine ⟨hphase, ?_⟩
      cases hpeer : s.peer with
      | none =>
          rw [hpeer] at h
          exact Or.inl ⟨rfl, (Option.some.inj h).symm⟩
      | some c =>
          -- the call returns zero, and the code is not zero
          obtain ⟨e, he⟩ := checkError_lastError formatMessage s c
          simp only [hpeer, he] at h
          exact Or.inr ⟨by simp, _, (Option.some.inj h).symm⟩
  · cases h

/-- The requester of a client that can be described is found, and the loop ends with any other. -/
theorem describe_eq_some {s s' : PipeListener} {mutex : Guarded} {sys : Desktop}
    {processId : Option Pid} (h : s.describe mutex sys processId = some s') :
    s.phase = .describing ∧
      (CanDescribe mutex sys processId ∧ s' = { s with phase := .spawning } ∨
        ¬ CanDescribe mutex sys processId ∧ ¬ s'.phase.Runs) := by
  obtain ⟨hphase, h⟩ := Option.ite_none_right_eq_some.1 h
  refine ⟨hphase, ?_⟩
  cases processId with
  | none => exact Or.inl ⟨fun pid hpid => absurd hpid nofun, (Option.some.inj h).symm⟩
  | some pid =>
      have hcan : CanDescribe mutex sys (some pid) ↔ mutex.Usable ∧ sys.Describes pid := by
        simp [CanDescribe]
      rw [hcan]
      simp only [PipeListener.requester] at h
      rcases requester_cases mutex sys pid with
        ⟨husable, hdescribes, ⟨requester, hfound⟩, -⟩ | ⟨hnot, hnever, -⟩
      · rw [hfound] at h
        exact Or.inl ⟨⟨husable, hdescribes⟩, (Option.some.inj h).symm⟩
      · refine Or.inr ⟨hnot, ?_⟩
        cases hrequester : mutex.requester sys pid with
        | found requester => exact absurd hrequester (hnever requester)
        | unwound mutex' =>
            rw [hrequester] at h
            rw [← Option.some.inj h]
            exact not_false
        | never =>
            rw [hrequester] at h
            rw [← Option.some.inj h]
            exact not_false

/-- and such a client is described. -/
theorem describe_of_canDescribe {s : PipeListener} {mutex : Guarded} {sys : Desktop}
    {processId : Option Pid} (hphase : s.phase = .describing)
    (h : CanDescribe mutex sys processId) :
    s.describe mutex sys processId = some { s with phase := .spawning } := by
  rw [PipeListener.describe, if_pos hphase]
  cases processId with
  | none => rfl
  | some pid =>
      rcases requester_cases mutex sys pid with ⟨-, -, ⟨requester, hfound⟩, -⟩ | ⟨hnot, -⟩
      · rw [PipeListener.requester, hfound]
      · exact absurd (h pid rfl) hnot

theorem spawn_eq_some {s s' : PipeListener} (h : s.spawn = some s') :
    ∃ c, s.phase = .spawning ∧ s.peer = some c ∧
      s' = { s with
        phase := .creating
        peer := none
        handlers := Function.update s.handlers c (s.handlers c + 1) } := by
  rw [PipeListener.spawn] at h
  split at h
  · next c hphase hpeer => exact ⟨c, hphase, hpeer, (Option.some.inj h).symm⟩
  · cases h

/-! ## The invariant -/

/-- What holds as long as the loop goes on. -/
structure PipeListener.Inv (s : PipeListener) : Prop where
  /-- The loop's client has no thread yet. -/
  fresh : ∀ c, s.peer = some c → s.handlers c = 0 ∧ s.clients c ≠ .absent
  absent : ∀ c, s.clients c = .absent → s.handlers c = 0
  alone : s.phase = .creating ∨ s.phase = .connecting → s.peer = none
  met : s.phase = .describing ∨ s.phase = .spawning → s.peer ≠ none

theorem inv_listener_start : PipeListener.start.Inv where
  fresh c h := by cases h
  absent c _ := rfl
  alone _ := rfl
  met h := by rcases h with h | h <;> cases h

theorem survives_start : Survives PipeListener.start where
  runs := trivial
  once _ := Nat.zero_le 1
  served c h := by cases h

section Step

variable {s s' : PipeListener} (hinv : s.Inv) (hs : Survives s)

include hinv hs

theorem listener_connect {c : ClientId} (h : s.connect c = some s') : s'.Inv ∧ Survives s' := by
  obtain ⟨hclient, hnone, hpeer, hclients, hhandlers, hphase⟩ := connect_eq_some h
  have hother {d : ClientId} (hd : d ≠ c) : s'.clients d = s.clients d := by
    rw [hclients, Function.update_of_ne hd]
  have hself : s'.clients c = .connected := by rw [hclients, Function.update_self]
  refine ⟨⟨?_, ?_, ?_, ?_⟩, ⟨?_, ?_, ?_⟩⟩
  · intro d hd
    obtain rfl : c = d := by
      rw [hpeer] at hd
      exact Option.some.inj hd
    rw [hhandlers, hself]
    exact ⟨hinv.absent c hclient, by simp⟩
  · intro d hd
    have hne : d ≠ c := by
      rintro rfl
      rw [hself] at hd
      cases hd
    rw [hhandlers]
    exact hinv.absent d (by rwa [← hother hne])
  · intro hp
    rcases hphase with ⟨-, hphase⟩ | ⟨-, hphase⟩ <;> simp [hphase] at hp
  · intro _
    simp [hpeer]
  · rcases hphase with ⟨-, hphase⟩ | ⟨-, hphase⟩
    · rw [hphase]
      trivial
    · rw [hphase]
      trivial
  · rw [hhandlers]
    exact hs.once
  · intro d hd
    by_cases hc : d = c
    · rw [hc]
      exact Or.inr hpeer
    · rw [hother hc] at hd
      rw [hhandlers]
      -- the instance was free, so whoever was connected before has a thread
      rcases hs.served d hd with hone | hd
      · exact Or.inl hone
      · rw [hnone] at hd
        cases hd

theorem listener_close {c : ClientId} (h : s.close c = some s') : s'.Inv ∧ Survives s' := by
  rw [PipeListener.close] at h
  split at h
  · next hclient =>
      rw [Option.some.injEq] at h
      subst h
      have hclosed {d : ClientId} {client : PipeClient} (hne : client ≠ .closed)
          (hd : Function.update s.clients c .closed d = client) : s.clients d = client := by
        by_cases hdc : d = c
        · subst hdc
          rw [Function.update_self] at hd
          exact absurd hd.symm hne
        · rwa [Function.update_of_ne hdc] at hd
      refine ⟨⟨?_, ?_, hinv.alone, hinv.met⟩, ⟨hs.runs, hs.once, ?_⟩⟩
      · intro d hd
        obtain ⟨hzero, habsent⟩ := hinv.fresh d hd
        exact ⟨hzero, fun h' => habsent (hclosed (by simp) h')⟩
      · intro d hd
        exact hinv.absent d (hclosed (by simp) hd)
      · intro d hd
        exact hs.served d (hclosed (by simp) hd)
  · cases h

/-- The loop moves on with the same instance. -/
theorem listener_phase {phase : ListenPhase} (hruns : phase.Runs)
    (halone : phase = .creating ∨ phase = .connecting → s.peer = none)
    (hmet : phase = .describing ∨ phase = .spawning → s.peer ≠ none) :
    PipeListener.Inv { s with phase } ∧ Survives { s with phase } :=
  ⟨⟨hinv.fresh, hinv.absent, halone, hmet⟩, ⟨hruns, hs.once, hs.served⟩⟩

theorem listener_spawn (h : s.spawn = some s') : s'.Inv ∧ Survives s' := by
  obtain ⟨c, hphase, hpeer, rfl⟩ := spawn_eq_some h
  obtain ⟨hzero, hclient⟩ := hinv.fresh c hpeer
  have hother {d : ClientId} (hd : d ≠ c) :
      Function.update s.handlers c (s.handlers c + 1) d = s.handlers d :=
    Function.update_of_ne hd _ _
  have hself : Function.update s.handlers c (s.handlers c + 1) c = 1 := by
    rw [Function.update_self, hzero]
  refine ⟨⟨?_, ?_, fun _ => rfl, ?_⟩, ⟨trivial, ?_, ?_⟩⟩
  · intro d hd
    cases hd
  · intro d hd
    have hne : d ≠ c := by
      rintro rfl
      exact hclient hd
    exact (hother hne).trans (hinv.absent d hd)
  · rintro (h' | h') <;> cases h'
  · intro d
    by_cases hd : d = c
    · rw [hd]
      exact hself.le
    · exact (hother hd).trans_le (hs.once d)
  · intro d hd
    by_cases hdc : d = c
    · rw [hdc]
      exact Or.inl hself
    · left
      -- the loop's client was another one, so this one has its thread already
      rcases hs.served d hd with hone | hpeer'
      · exact (hother hdc).trans hone
      · rw [hpeer, Option.some.injEq] at hpeer'
        exact absurd hpeer'.symm hdc

end Step

/-- **One step.** From a state that survives, a timely step leads to one that survives, and any
other step ends the loop. -/
theorem listener_step {formatMessage : Nat → String} {s s' : PipeListener} {act : PipeAct}
    (hinv : s.Inv) (hs : Survives s) (h : (pipeMachine formatMessage).step s act = some s') :
    (Timely s act → s'.Inv ∧ Survives s') ∧ (¬ Timely s act → ¬ Survives s') := by
  cases act with
  | connect c => exact ⟨fun _ => listener_connect hinv hs h, fun hnot => absurd trivial hnot⟩
  | close c => exact ⟨fun _ => listener_close hinv hs h, fun hnot => absurd trivial hnot⟩
  | createPipe =>
      obtain ⟨-, hs'⟩ := Option.ite_none_right_eq_some.1 h
      rw [← Option.some.inj hs']
      refine ⟨fun _ => listener_phase hinv hs trivial ?_ ?_, fun hnot => absurd trivial hnot⟩
      · rintro (h' | h') <;> cases h'
      · rintro (h' | h') <;> cases h'
  | connectPipe =>
      obtain ⟨-, ⟨hpeer, rfl⟩ | ⟨hpeer, e, rfl⟩⟩ := connectPipe_eq_some h
      · refine ⟨fun _ => listener_phase hinv hs trivial (fun _ => hpeer) ?_,
          fun hnot => absurd hpeer hnot⟩
        rintro (h' | h') <;> cases h'
      · exact ⟨fun htimely => absurd htimely hpeer, fun _ hs' => hs'.runs⟩
  | describe mutex sys processId =>
      obtain ⟨hphase, ⟨hcan, rfl⟩ | ⟨hnot, hend⟩⟩ := describe_eq_some h
      · have hmet : s.peer ≠ none := hinv.met (Or.inl hphase)
        refine ⟨fun _ => listener_phase hinv hs trivial ?_ (fun _ => hmet),
          fun hnot => absurd hcan hnot⟩
        rintro (h' | h') <;> cases h'
      · exact ⟨fun htimely => absurd htimely hnot, fun _ hs' => hend hs'.runs⟩
  | spawn => exact ⟨fun _ => listener_spawn hinv hs h, fun hnot => absurd trivial hnot⟩
  | exit =>
      -- the loop has not returned
      have hruns := hs.runs
      simp only [pipeMachine] at h
      split at h
      · next e hphase =>
          rw [hphase] at hruns
          exact absurd hruns not_false
      · cases h

/-- What the loop still has to do for the client it is with, if it meets this mutex and this
client. -/
def PipeListener.toHandler (s : PipeListener) (mutex : Guarded) (sys : Desktop)
    (processId : Option Pid) : List PipeAct :=
  if s.phase = .describing then [.describe mutex sys processId, .spawn] else [.spawn]

/-- A client that the loop has met gets its thread from the next steps of the loop. -/
theorem handler_of_met {formatMessage : Nat → String} {s : PipeListener} {c : ClientId}
    (hinv : s.Inv) (hs : Survives s) (hpeer : s.peer = some c) (mutex : Guarded) (sys : Desktop)
    (processId : Option Pid) (hcan : CanDescribe mutex sys processId) :
    s.phase = .created ∨
      ∃ s', (pipeMachine formatMessage).run s (s.toHandler mutex sys processId) = some s' ∧
        s'.handlers c = 1 := by
  have hzero := (hinv.fresh c hpeer).1
  have hruns := hs.runs
  have halone := hinv.alone
  rw [hpeer] at halone
  cases hphase : s.phase with
  | creating => exact absurd (halone (Or.inl hphase)) (by simp)
  | created => exact Or.inl rfl
  | connecting => exact absurd (halone (Or.inr hphase)) (by simp)
  | describing =>
      refine Or.inr ⟨{ s with
        phase := .creating
        peer := none
        handlers := Function.update s.handlers c (s.handlers c + 1) }, ?_, ?_⟩
      · simp [PipeListener.toHandler, hphase, Machine.run, pipeMachine,
          describe_of_canDescribe hphase hcan, PipeListener.spawn, hpeer]
      · simp [hzero]
  | spawning =>
      refine Or.inr ⟨{ s with
        phase := .creating
        peer := none
        handlers := Function.update s.handlers c (s.handlers c + 1) }, ?_, ?_⟩
      · simp [PipeListener.toHandler, hphase, Machine.run, pipeMachine, PipeListener.spawn, hpeer]
      · simp [hzero]
  | returned e =>
      rw [hphase] at hruns
      exact absurd hruns not_false
  | exited =>
      rw [hphase] at hruns
      exact absurd hruns not_false
  | panicked =>
      rw [hphase] at hruns
      exact absurd hruns not_false
  | stuck =>
      rw [hphase] at hruns
      exact absurd hruns not_false

/-- **The listener of the named pipe.** Over a run the loop goes on and gives every connected client
exactly one thread exactly when `ConnectNamedPipe` is never called on an instance that a client has
opened already, and every client that the loop meets can be described. In such a run, a client that
the loop has met has its thread after the loop's next steps. -/
theorem listener_survives_iff (formatMessage : Nat → String) (acts : List PipeAct) :
    ((pipeMachine formatMessage).AllStates Survives PipeListener.start acts ↔
      (pipeMachine formatMessage).AllSteps Timely PipeListener.start acts) ∧
    ((pipeMachine formatMessage).AllSteps Timely PipeListener.start acts →
      ∀ s c, (pipeMachine formatMessage).run PipeListener.start acts = some s → s.peer = some c →
        ∀ mutex sys processId, CanDescribe mutex sys processId → s.phase = .created ∨
          ∃ s', (pipeMachine formatMessage).run s (s.toHandler mutex sys processId) = some s' ∧
            s'.handlers c = 1) := by
  constructor
  · refine Machine.allStates_iff_allSteps (J := PipeListener.Inv) ?_ ?_ acts inv_listener_start
      survives_start
    · intro s act s' hinv hs htimely hstep
      exact ((listener_step hinv hs hstep).1 htimely).1
    · intro s act s' hinv hs hstep
      obtain ⟨hkeep, hend⟩ := listener_step hinv hs hstep
      constructor
      · intro hs'
        by_contra hnot
        exact hend hnot hs'
      · exact fun htimely => (hkeep htimely).2
  · intro htimely s c hrun hpeer
    -- the invariant holds along the run too
    have hall : (pipeMachine formatMessage).AllStates (fun s => s.Inv ∧ Survives s)
        PipeListener.start acts := by
      refine (Machine.allStates_iff_allSteps (J := fun _ => True)
        (fun _ _ _ _ _ _ _ => trivial) ?_ acts trivial ⟨inv_listener_start, survives_start⟩).2
        htimely
      intro s act s' _ hs hstep
      obtain ⟨hkeep, hend⟩ := listener_step hs.1 hs.2 hstep
      constructor
      · intro hs'
        by_contra hnot
        exact hend hnot hs'.2
      · exact hkeep
    obtain ⟨hinv, hs⟩ := hall.of_run hrun
    exact handler_of_met hinv hs hpeer

/-- A client opens the pipe between the two calls, and the process ends. -/
theorem early_client_ends_process :
    (∃ s, (pipeMachine fun _ => "").run PipeListener.start
        [.createPipe, .connect 0, .connectPipe, .exit] = some s ∧
      s.phase = .exited ∧ s.clients 0 = .connected ∧ s.handlers 0 = 0) ∧
    ¬ (pipeMachine fun _ => "").AllStates Survives PipeListener.start
      [.createPipe, .connect 0, .connectPipe, .exit] := by
  constructor
  · exact ⟨_, rfl, rfl, rfl, rfl⟩
  · intro h
    exact (h.of_run rfl).runs

end SshKeys
