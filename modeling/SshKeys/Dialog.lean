import SshKeys.Describe
import SshKeys.Store

/-!
# Threads, the mutex and the confirmation dialog

The threads of the serving process: connection threads that handle requests under the agent's mutex,
listeners that take it to describe a client, and the main thread, whose message loop shows the
dialogs and runs the tray menu (`platform/win`). `ask_confirmation` waits under the mutex for the
main thread, and the menu's reload waits in the main thread for the mutex. The description of a
client is that of `Describe`, so it may also panic under the mutex or keep it for ever.

`never_deadlocked_iff` says which runs avoid the state in which both wait for each other, and
`deadlocked_run` that there is no way out of it.
-/

set_option autoImplicit false

namespace SshKeys

open Lib

/-- The number of a thread other than the main thread. -/
abbrev ThreadId := Nat

/-- What a thread other than the main thread is there for. The Pageant thread describes clients and
handles their requests itself. -/
inductive ThreadRole where
  | pipeListener
  | connection
  | pageant
  deriving DecidableEq

/-- Where a thread is, other than the main thread. -/
inductive ThreadPhase where
  | running
  /-- At `agent.lock()`, to describe a client of which the system says this. -/
  | lockingDescribe (sys : Desktop) (pid : Pid)
  /-- In `collect_requester_info`. -/
  | describing (sys : Desktop) (pid : Pid)
  /-- At `agent.lock()`, with a request. -/
  | locking (call : Call)
  | handling (call : Call)
  /-- In `ask_confirmation`, with the answer that is in the channel, if there is one. -/
  | asking (call : Call) (answer : Option Bool)
  | dead

/-- Where the main thread is. -/
inductive MainPhase where
  /-- In the message loop of `serve`. -/
  | loop
  /-- In `TrackPopupMenuEx`. -/
  | menu
  /-- At `agent.lock()`, to reload. -/
  | lockingReload
  | reloading
  /-- In `show_error` after a failed reload, with the mutex still held. -/
  | errorBox
  /-- In `TrackPopupMenuEx`, over the box of `show_error`. -/
  | errorMenu
  | exited
  deriving DecidableEq

/-- Who holds the mutex. -/
inductive Owner where
  | main
  | thread (t : ThreadId)
  deriving DecidableEq

/-- The serving process. -/
structure Serving where
  world : World
  poisoned : Bool
  holder : Option Owner
  main : MainPhase
  threads : ThreadId → ThreadPhase
  /-- The `WM_SHOW_CONFIRMATION` messages in the main thread's queue, each with its sender. -/
  posted : List ThreadId
  /-- The dialogs on the screen that are not answered, each with the thread that asks. -/
  dialogs : List ThreadId
  /-- The dialog whose answer the main thread has sent, and which it is about to destroy. -/
  closing : Option ThreadId
  quitPosted : Bool

/-- The process as it starts to serve. -/
def Serving.start (w : World) : Serving where
  world := w
  poisoned := false
  holder := none
  main := .loop
  threads _ := .running
  posted := []
  dialogs := []
  closing := none
  quitPosted := false

/-! ## The main thread -/

/-- What the main thread does. -/
inductive MainAct where
  /-- `show_dialog` -/
  | showConfirmation
  | dropConfirmation
  /-- `sender.send` on a click in the dialog of the thread. -/
  | click (t : ThreadId) (answer : Bool)
  /-- `DestroyWindow`, behind `sender.send`. -/
  | destroyWindow
  | openMenu
  | dismissMenu
  | chooseExit
  | chooseReload
  | lockReload
  | reload (fault : LoadFault)
  | closeErrorBox
  | quit

/-- The main thread takes messages from its queue, in its own loop or in a modal one. -/
def MainPhase.Pumps (phase : MainPhase) : Prop :=
  phase = .loop ∨ phase = .menu ∨ phase = .errorBox ∨ phase = .errorMenu

instance : DecidablePred MainPhase.Pumps := fun phase =>
  inferInstanceAs
    (Decidable (phase = .loop ∨ phase = .menu ∨ phase = .errorBox ∨ phase = .errorMenu))

/-- The main thread works under the mutex. -/
def MainPhase.UnderMutex (phase : MainPhase) : Prop :=
  phase = .reloading ∨ phase = .errorBox ∨ phase = .errorMenu

/-- The tray menu opens over the message loop or over the error box. -/
def MainPhase.withMenu : MainPhase → Option MainPhase
  | .loop => some .menu
  | .errorBox => some .errorMenu
  | _ => none

/-- Where the main thread is after a command of the menu, or without one. -/
def MainPhase.withoutMenu : MainPhase → Option MainPhase
  | .menu => some .loop
  | .errorMenu => some .errorBox
  | _ => none

/-- The answer in the channel of a thread that waits for one. -/
def ThreadPhase.answered (answer : Bool) : ThreadPhase → ThreadPhase
  | .asking call none => .asking call (some answer)
  | phase => phase

/-- A step of the main thread that is not about to destroy a dialog. -/
def Serving.messageStep (crates : Crates) (s : Serving) : MainAct → Option Serving
  | .showConfirmation =>
      match s.posted with
      | t :: posted =>
          if s.main = .loop then some { s with posted, dialogs := t :: s.dialogs } else none
      | [] => none
  -- a modal loop does not know the message and loses it
  | .dropConfirmation =>
      if s.main.Pumps ∧ s.main ≠ .loop then some { s with posted := s.posted.tail } else none
  | .click t answer =>
      if s.main.Pumps ∧ t ∈ s.dialogs then
        some { s with
          dialogs := s.dialogs.erase t
          closing := some t
          threads := Function.update s.threads t ((s.threads t).answered answer) }
      else none
  | .destroyWindow => none
  | .openMenu => s.main.withMenu.map fun main => { s with main }
  | .dismissMenu => s.main.withoutMenu.map fun main => { s with main }
  | .chooseExit => s.main.withoutMenu.map fun main => { s with main, quitPosted := true }
  -- over the error box the main thread holds the mutex that it goes on to wait for
  | .chooseReload => s.main.withoutMenu.map fun _ => { s with main := .lockingReload }
  | .lockReload =>
      -- `lock().unwrap()` on a poisoned mutex panics, and the process ends
      if s.main = .lockingReload ∧ s.holder = none then
        if s.poisoned then some { s with main := .exited }
        else some { s with main := .reloading, holder := some .main }
      else none
  | .reload fault =>
      if s.main = .reloading then
        match Config.reload crates fault s.world.file s.world.config with
        | (.ok (), config) =>
            some { s with world := { s.world with config }, main := .loop, holder := none }
        | _ => some { s with main := .errorBox }
      else none
  | .closeErrorBox =>
      if s.main = .errorBox then some { s with main := .loop, holder := none } else none
  | .quit =>
      if s.main = .loop ∧ s.quitPosted = true ∧ s.posted = [] then some { s with main := .exited }
      else none

/-- Between sending an answer and destroying its dialog, the main thread does nothing else. -/
def Serving.mainStep (crates : Crates) (s : Serving) (act : MainAct) : Option Serving :=
  match s.closing, act with
  | some _, .destroyWindow => some { s with closing := none }
  | some _, _ => none
  | none, act => s.messageStep crates act

/-! ## The other threads -/

/-- What a thread does, other than the main thread. -/
inductive ThreadAct where
  | describe (sys : Desktop) (pid : Pid)
  | receive (call : Call)
  | lock
  /-- `collect_requester_info` returns or panics. -/
  | finishDescribe
  | handle
  | receiveAnswer

/-- Handling the request gets to `ask_confirmation`. -/
def asksConfirmation (w : World) (buf : Bytes) : Bool :=
  match Command.parse buf with
  | .ok (.signRequest publicKey _ _) => (Agent.getKey w.config publicKey).isSome
  | _ => false

/-- The thread goes on to this phase. -/
def Serving.setThread (s : Serving) (t : ThreadId) (phase : ThreadPhase) : Serving :=
  { s with threads := Function.update s.threads t phase }

/-- `lock().unwrap()` -/
def Serving.lockAs (s : Serving) (t : ThreadId) (phase : ThreadPhase) : Option Serving :=
  if s.holder = none then
    if s.poisoned then some (s.setThread t .dead)
    else some { s.setThread t phase with holder := some (.thread t) }
  else none

/-- The request is handled in the world `w` and the mutex released. -/
def Serving.finish (crates : Crates) (s : Serving) (t : ThreadId) (call : Call) (w : World) :
    Serving :=
  match Agent.handleRequest crates call.buf call.info w with
  | ⟨.ok _, w', _⟩ => { s.setThread t .running with world := w', holder := none }
  | ⟨_, w', _⟩ => { s.setThread t .dead with world := w', holder := none, poisoned := true }

/-- The description of a client is over, and the mutex released. -/
def Serving.described (s : Serving) (t : ThreadId) :
    Option (Outcome Error RequesterInfo) → Option Serving
  -- the walk to the ancestors does not end
  | none => none
  | some .panic => some { s.setThread t .dead with holder := none, poisoned := true }
  | some (.ok _) => some { s.setThread t .running with holder := none }
  | some (.err _) => some { s.setThread t .running with holder := none }

/-- A step of a thread, which depends on where it is. -/
def Serving.threadStep (crates : Crates) (role : ThreadId → ThreadRole) (s : Serving)
    (t : ThreadId) (act : ThreadAct) : Option Serving :=
  match s.threads t, act with
  | .running, .describe sys pid =>
      if role t ≠ .connection then some (s.setThread t (.lockingDescribe sys pid)) else none
  | .running, .receive call =>
      if role t ≠ .pipeListener then some (s.setThread t (.locking call)) else none
  -- describing a client only reads the agent, and locks it for that
  | .lockingDescribe sys pid, .lock => s.lockAs t (.describing sys pid)
  | .locking call, .lock => s.lockAs t (.handling call)
  | .describing sys pid, .finishDescribe => s.described t (sys.describeClient pid)
  | .handling call, .handle =>
      -- the thread posts its message and waits, with the mutex held
      if asksConfirmation s.world call.buf then
        some { s.setThread t (.asking call none) with posted := s.posted ++ [t] }
      else some (s.finish crates t call s.world)
  | .asking call (some answer), .receiveAnswer =>
      some (s.finish crates t call
        { s.world with confirms := Stream'.cons answer s.world.confirms })
  | _, _ => none

/-- A step of the process. -/
inductive DialogAct where
  | main (act : MainAct)
  | thread (t : ThreadId) (act : ThreadAct)

/-- Nothing happens after the main thread has returned. -/
def dialogMachine (crates : Crates) (role : ThreadId → ThreadRole) :
    Machine Serving DialogAct where
  step s act :=
    if s.main = .exited then none
    else
      match act with
      | .main act => s.mainStep crates act
      | .thread t act => s.threadStep crates role t act

/-- A request gets to `ask_confirmation` exactly when handling it records a confirmation. -/
theorem asksConfirmation_iff (crates : Crates) (info : RequestInfo) (w : World) (buf : Bytes) :
    asksConfirmation w buf = true ↔
      ∃ keyPair answer, .confirm keyPair info answer ∈
        (Agent.handleRequest crates buf info w).events := by
  rw [Agent.handleRequest_eq, Effect.after, handled, asksConfirmation]
  cases Command.parse buf with
  | err e => simp
  | panic => simp
  | ok command =>
  cases command with
  | requestIdentities => simp [perform]
  | addIdentity keyPair =>
      simp only [perform]
      split
      · simp
      · split <;> simp
  | signRequest publicKey msg flags =>
      have hsigning := signing_perform crates info w publicKey msg flags
      simp only
      generalize perform crates info w (.signRequest publicKey msg flags) = r at hsigning ⊢
      cases hsigning with
      | unknown hget => simp [hget]
      | refused hget hyes => simp [hget]
      | failed hget hyes hsign => simp [hget]
      | signed hget hyes hsign => simp [hget]

/-! ## The deadlock -/

/-- The holder of the mutex is in `ask_confirmation`, and nobody has answered yet. -/
def Serving.waitsForUser (s : Serving) : Bool :=
  match s.holder with
  | some (.thread t) =>
      match s.threads t with
      | .asking _ none => true
      | _ => false
  | _ => false

/-- The main thread waits for the mutex, and its holder for an answer that only the main thread's
messages can bring. -/
def Deadlocked (s : Serving) : Prop := s.main = .lockingReload ∧ s.waitsForUser = true

instance : DecidablePred Deadlocked := fun s =>
  inferInstanceAs (Decidable (s.main = .lockingReload ∧ s.waitsForUser = true))

/-- The thread is about to ask. -/
def Serving.aboutToAsk (s : Serving) (t : ThreadId) : Bool :=
  match s.threads t with
  | .handling call => asksConfirmation s.world call.buf
  | _ => false

/-- The user does not choose to reload while a dialog is to be answered, and no request for a
signature with a stored key is handled while the main thread waits for the mutex. -/
def Careful (s : Serving) : DialogAct → Prop
  | .main .chooseReload => s.waitsForUser = false
  | .thread t .handle => s.main = .lockingReload → s.aboutToAsk t = false
  | _ => True

/-- The thread is between `lock()` and the release. -/
def ThreadPhase.Holds : ThreadPhase → Prop
  | .describing _ _ => True
  | .handling _ => True
  | .asking _ _ => True
  | _ => False

/-- Who works under the mutex is its holder. -/
structure Serving.Exclusive (s : Serving) : Prop where
  thread : ∀ t, (s.threads t).Holds → s.holder = some (.thread t)
  main : s.main.UnderMutex → s.holder = some .main

theorem not_deadlocked_of_main {s : Serving} (h : s.main ≠ .lockingReload) : ¬ Deadlocked s :=
  fun hd => h hd.1

theorem not_deadlocked_of_free {s : Serving} (h : s.holder = none) : ¬ Deadlocked s := by
  rintro ⟨-, hw⟩
  rw [Serving.waitsForUser, h] at hw
  cases hw

theorem waitsForUser_iff {s : Serving} :
    s.waitsForUser = true ↔
      ∃ t call, s.holder = some (.thread t) ∧ s.threads t = .asking call none := by
  rw [Serving.waitsForUser]
  constructor
  · intro h
    split at h
    · next t hholder =>
        split at h
        · next call hphase => exact ⟨t, call, hholder, hphase⟩
        · cases h
    · cases h
  · rintro ⟨t, call, hholder, hphase⟩
    rw [hholder]
    simp only [hphase]

section Threads

variable {s : Serving} {t : ThreadId}

/-- Who works under the mutex after one thread went on: this thread, or another one as before. -/
theorem holds_setThread {phase : ThreadPhase} {t' : ThreadId}
    (h : ((s.setThread t phase).threads t').Holds) :
    (t' = t ∧ phase.Holds) ∨ (t' ≠ t ∧ (s.threads t').Holds) := by
  have hupdate : (Function.update s.threads t phase t').Holds := h
  by_cases heq : t' = t
  · rw [heq, Function.update_self] at hupdate
    exact Or.inl ⟨heq, hupdate⟩
  · rw [Function.update_of_ne heq] at hupdate
    exact Or.inr ⟨heq, hupdate⟩

/-- A thread that stays outside the mutex changes nothing about who holds it. -/
theorem exclusive_setThread {phase : ThreadPhase} (h : s.Exclusive)
    (hphase : ¬ phase.Holds) : (s.setThread t phase).Exclusive where
  thread t' ht' := by
    rcases holds_setThread ht' with ⟨-, hholds⟩ | ⟨-, hholds⟩
    · exact absurd hholds hphase
    · exact h.thread t' hholds
  main := h.main

/-- The holder goes on under the mutex. -/
theorem exclusive_setThread_holder (h : s.Exclusive) (phase : ThreadPhase)
    (hholder : s.holder = some (.thread t)) : (s.setThread t phase).Exclusive where
  thread t' ht' := by
    rcases holds_setThread ht' with ⟨rfl, -⟩ | ⟨-, hholds⟩
    · exact hholder
    · exact h.thread t' hholds
  main := h.main

/-- The holder releases the mutex. -/
theorem exclusive_release {phase : ThreadPhase} (h : s.Exclusive)
    (hholder : s.holder = some (.thread t)) (hphase : ¬ phase.Holds) (w : World)
    (poisoned : Bool) :
    ({ s.setThread t phase with world := w, holder := none, poisoned } : Serving).Exclusive where
  thread t' ht' := by
    rcases holds_setThread ht' with ⟨-, hholds⟩ | ⟨hne, hholds⟩
    · exact absurd hholds hphase
    · have hother := h.thread t' hholds
      rw [hholder, Option.some.injEq, Owner.thread.injEq] at hother
      exact absurd hother.symm hne
  main hmain := by
    have hother := h.main hmain
    rw [hholder] at hother
    cases hother

/-- A thread takes the free mutex. -/
theorem exclusive_lock {phase : ThreadPhase} (h : s.Exclusive) (hfree : s.holder = none) :
    ({ s.setThread t phase with holder := some (.thread t) } : Serving).Exclusive where
  thread t' ht' := by
    rcases holds_setThread ht' with ⟨rfl, -⟩ | ⟨-, hholds⟩
    · rfl
    · have hother := h.thread t' hholds
      rw [hfree] at hother
      cases hother
  main hmain := by
    have hother := h.main hmain
    rw [hfree] at hother
    cases hother

end Threads

theorem finish_eq (crates : Crates) (s : Serving) (t : ThreadId) (call : Call) (w : World) :
    ∃ phase w' poisoned, ¬ phase.Holds ∧ s.finish crates t call w =
      { s.setThread t phase with world := w', holder := none, poisoned } := by
  rw [Serving.finish]
  split
  · exact ⟨.running, _, s.poisoned, not_false, rfl⟩
  · exact ⟨.dead, _, true, not_false, rfl⟩

theorem described_eq_some {s s' : Serving} {t : ThreadId}
    {result : Option (Outcome Error RequesterInfo)} (h : s.described t result = some s') :
    result = some .panic ∧ s' = { s.setThread t .dead with holder := none, poisoned := true } ∨
      (∃ end', result = some end' ∧ end' ≠ .panic) ∧
        s' = { s.setThread t .running with holder := none } := by
  cases result with
  | none => cases h
  | some result =>
      cases result with
      | panic => exact Or.inl ⟨rfl, (Option.some.inj h).symm⟩
      | ok info => exact Or.inr ⟨⟨_, rfl, by simp⟩, (Option.some.inj h).symm⟩
      | err e => exact Or.inr ⟨⟨_, rfl, by simp⟩, (Option.some.inj h).symm⟩

/-- What an action of a thread can do to the process. -/
inductive ThreadMoves (s : Serving) (t : ThreadId) (act : ThreadAct) : Serving → Prop where
  /-- The thread goes on outside the mutex. -/
  | outside {phase : ThreadPhase} : ¬ (s.threads t).Holds → ¬ phase.Holds → act ≠ .handle →
      ThreadMoves s t act (s.setThread t phase)
  | acquire {phase : ThreadPhase} : s.holder = none → act ≠ .handle →
      (∀ call, phase ≠ .asking call none) →
      ThreadMoves s t act { s.setThread t phase with holder := some (.thread t) }
  | ask {call : Call} : act = .handle → (s.threads t).Holds → s.aboutToAsk t = true →
      ThreadMoves s t act { s.setThread t (.asking call none) with posted := s.posted ++ [t] }
  | release {phase : ThreadPhase} (w : World) (poisoned : Bool) : (s.threads t).Holds →
      (∀ call, s.threads t ≠ .asking call none) → ¬ phase.Holds →
      (act = .handle → s.aboutToAsk t = false) →
      ThreadMoves s t act { s.setThread t phase with world := w, holder := none, poisoned }

theorem moves_of_lockAs {s s' : Serving} {t : ThreadId} {phase : ThreadPhase}
    (hout : ¬ (s.threads t).Holds) (hphase : ∀ call, phase ≠ .asking call none)
    (h : s.lockAs t phase = some s') : ThreadMoves s t .lock s' := by
  rw [Serving.lockAs] at h
  by_cases hfree : s.holder = none
  · rw [if_pos hfree] at h
    cases hp : s.poisoned with
    | true =>
        rw [hp, if_pos rfl] at h
        rw [← Option.some.inj h]
        exact .outside hout not_false (by simp)
    | false =>
        rw [hp, if_neg (by simp)] at h
        rw [← Option.some.inj h]
        exact .acquire hfree (by simp) hphase
  · rw [if_neg hfree] at h
    cases h

theorem moves_of_threadStep {crates : Crates} {role : ThreadId → ThreadRole} {s s' : Serving}
    {t : ThreadId} {act : ThreadAct} (h : s.threadStep crates role t act = some s') :
    ThreadMoves s t act s' := by
  have hfinish (call : Call) (w : World) (hholds : (s.threads t).Holds)
      (hasked : ∀ call, s.threads t ≠ .asking call none)
      (hask : act = .handle → s.aboutToAsk t = false) :
      ThreadMoves s t act (s.finish crates t call w) := by
    obtain ⟨phase, w', poisoned, hphase, heq⟩ := finish_eq crates s t call w
    rw [heq]
    exact .release w' poisoned hholds hasked hphase hask
  -- one case for each phase of the thread and the action that goes with it
  unfold Serving.threadStep at h
  split at h
  · next hphase =>
      split at h
      · rw [← Option.some.inj h]
        exact .outside (by rw [hphase]; exact not_false) not_false (by simp)
      · cases h
  · next hphase =>
      split at h
      · rw [← Option.some.inj h]
        exact .outside (by rw [hphase]; exact not_false) not_false (by simp)
      · cases h
  · next hphase => exact moves_of_lockAs (by rw [hphase]; exact not_false) (by simp) h
  · next hphase => exact moves_of_lockAs (by rw [hphase]; exact not_false) (by simp) h
  · next hphase =>
      have hholds : (s.threads t).Holds := by rw [hphase]; trivial
      rcases described_eq_some h with ⟨-, rfl⟩ | ⟨-, rfl⟩
      · exact .release s.world true hholds (by simp [hphase]) not_false (by simp)
      · exact .release s.world s.poisoned hholds (by simp [hphase]) not_false (by simp)
  · next call hphase =>
      have hholds : (s.threads t).Holds := by rw [hphase]; trivial
      have habout : s.aboutToAsk t = asksConfirmation s.world call.buf := by
        simp only [Serving.aboutToAsk, hphase]
      split at h
      · next hask =>
          rw [← Option.some.inj h]
          exact .ask rfl hholds (habout.trans hask)
      · next hask =>
          rw [← Option.some.inj h]
          exact hfinish call s.world hholds (by simp [hphase])
            fun _ => by rw [habout]; simpa using hask
  · next call answer hphase =>
      rw [← Option.some.inj h]
      exact hfinish call _ (by rw [hphase]; trivial) (by simp [hphase]) (by simp)
  · cases h

/-- What an action of the main thread can do to the process. -/
inductive MainMoves (s : Serving) (act : MainAct) : Serving → Prop where
  /-- The mutex stays as it is, and the main thread does not wait for it. -/
  | outside {s' : Serving} : s.main ≠ .lockingReload → act ≠ .chooseReload →
      s'.main ≠ .lockingReload → s'.holder = s.holder →
      (s'.main.UnderMutex → s.main.UnderMutex) →
      (∀ t, (s'.threads t).Holds → (s.threads t).Holds) → MainMoves s act s'
  | chooseReload : act = .chooseReload → s.main ≠ .lockingReload →
      MainMoves s act { s with main := .lockingReload }
  | acquire : act ≠ .chooseReload → s.holder = none →
      MainMoves s act { s with main := .reloading, holder := some .main }
  | panic : act ≠ .chooseReload → s.holder = none → MainMoves s act { s with main := .exited }
  | release {w : World} : act ≠ .chooseReload → s.main.UnderMutex →
      MainMoves s act { s with world := w, main := .loop, holder := none }
  | destroyWindow : act = .destroyWindow → MainMoves s act { s with closing := none }

theorem holds_answered {phase : ThreadPhase} {answer : Bool} (h : (phase.answered answer).Holds) :
    phase.Holds := by
  cases phase with
  | asking call answer' => trivial
  | running => exact h
  | lockingDescribe sys pid => exact h
  | describing sys pid => exact h
  | locking call => exact h
  | handling call => exact h
  | dead => exact h

/-- Opening the menu, or closing it, takes the main thread from no wait to none. -/
theorem menu_cases {phase phase' : MainPhase}
    (h : phase.withMenu = some phase' ∨ phase.withoutMenu = some phase') :
    phase ≠ .lockingReload ∧ phase' ≠ .lockingReload ∧ (phase'.UnderMutex → phase.UnderMutex) := by
  rcases h with h | h <;> cases phase <;> cases h <;> simp [MainPhase.UnderMutex]

theorem moves_of_messageStep {crates : Crates} {s s' : Serving} {act : MainAct}
    (h : s.messageStep crates act = some s') : MainMoves s act s' := by
  have hmenu {phase : MainPhase} (hact : act ≠ .chooseReload) (quitPosted : Bool)
      (hphase : s.main.withMenu = some phase ∨ s.main.withoutMenu = some phase) :
      MainMoves s act { s with main := phase, quitPosted } := by
    obtain ⟨hmain, hmain', hunder⟩ := menu_cases hphase
    exact .outside hmain hact hmain' rfl hunder fun _ => id
  have hpumping (hpumps : s.main.Pumps) : s.main ≠ .lockingReload := by
    rcases hpumps with hmain | hmain | hmain | hmain <;> simp [hmain]
  cases act with
  | showConfirmation =>
      simp only [Serving.messageStep] at h
      split at h
      · split at h
        · next hmain =>
            rw [← Option.some.inj h]
            exact .outside (by simp [hmain]) (by simp) (by simp [hmain]) rfl id fun _ => id
        · cases h
      · cases h
  | dropConfirmation =>
      simp only [Serving.messageStep] at h
      split at h
      · next hmain =>
          rw [← Option.some.inj h]
          exact .outside (hpumping hmain.1) (by simp) (hpumping hmain.1) rfl id fun _ => id
      · cases h
  | click t answer =>
      simp only [Serving.messageStep] at h
      split at h
      · next hmain =>
          rw [← Option.some.inj h]
          refine .outside (hpumping hmain.1) (by simp) (hpumping hmain.1) rfl id ?_
          intro t' ht'
          have ht : (Function.update s.threads t ((s.threads t).answered answer) t').Holds := ht'
          by_cases heq : t' = t
          · rw [heq, Function.update_self] at ht
            rw [heq]
            exact holds_answered ht
          · rwa [Function.update_of_ne heq] at ht
      · cases h
  | destroyWindow => cases h
  | openMenu =>
      obtain ⟨phase, hphase, rfl⟩ := Option.map_eq_some_iff.1 h
      exact hmenu (by simp) s.quitPosted (Or.inl hphase)
  | dismissMenu =>
      obtain ⟨phase, hphase, rfl⟩ := Option.map_eq_some_iff.1 h
      exact hmenu (by simp) s.quitPosted (Or.inr hphase)
  | chooseExit =>
      obtain ⟨phase, hphase, rfl⟩ := Option.map_eq_some_iff.1 h
      exact hmenu (by simp) true (Or.inr hphase)
  | chooseReload =>
      obtain ⟨phase, hphase, rfl⟩ := Option.map_eq_some_iff.1 h
      exact .chooseReload rfl (menu_cases (Or.inr hphase)).1
  | lockReload =>
      simp only [Serving.messageStep] at h
      split at h
      · next hmain =>
          split at h
          · rw [← Option.some.inj h]
            exact .panic (by simp) hmain.2
          · rw [← Option.some.inj h]
            exact .acquire (by simp) hmain.2
      · cases h
  | reload fault =>
      simp only [Serving.messageStep] at h
      split at h
      · next hmain =>
          have hunder : s.main.UnderMutex := Or.inl hmain
          split at h
          · rw [← Option.some.inj h]
            exact .release (by simp) hunder
          · rw [← Option.some.inj h]
            exact .outside (by simp [hmain]) (by simp) (by simp) rfl (fun _ => hunder)
              fun _ => id
      · cases h
  | closeErrorBox =>
      simp only [Serving.messageStep] at h
      split at h
      · next hmain =>
          rw [← Option.some.inj h]
          exact .release (by simp) (Or.inr (Or.inl hmain))
      · cases h
  | quit =>
      simp only [Serving.messageStep] at h
      split at h
      · next hmain =>
          rw [← Option.some.inj h]
          exact .outside (by simp [hmain.1]) (by simp) (by simp) rfl
            (by simp [MainPhase.UnderMutex]) fun _ => id
      · cases h

/-- A main thread that is about to destroy a dialog does just that, and any other takes a
message. -/
theorem mainStep_eq_some {crates : Crates} {s s' : Serving} {act : MainAct}
    (h : s.mainStep crates act = some s') :
    (∃ t, s.closing = some t) ∧ act = .destroyWindow ∧ s' = { s with closing := none } ∨
      s.closing = none ∧ s.messageStep crates act = some s' := by
  unfold Serving.mainStep at h
  split at h
  · next t hclosing => exact Or.inl ⟨⟨t, hclosing⟩, rfl, (Option.some.inj h).symm⟩
  · cases h
  · next hclosing => exact Or.inr ⟨hclosing, h⟩

theorem moves_of_mainStep {crates : Crates} {s s' : Serving} {act : MainAct}
    (h : s.mainStep crates act = some s') : MainMoves s act s' := by
  rcases mainStep_eq_some h with ⟨-, rfl, rfl⟩ | ⟨-, hmessage⟩
  · exact .destroyWindow rfl
  · exact moves_of_messageStep hmessage

theorem exclusive_start (w : World) : (Serving.start w).Exclusive where
  thread t h := absurd h not_false
  main h := by rcases h with h | h | h <;> cases h

theorem exclusive_of_threadMoves {s s' : Serving} {t : ThreadId} {act : ThreadAct}
    (h : s.Exclusive) (hmoves : ThreadMoves s t act s') : s'.Exclusive := by
  cases hmoves with
  | outside hout hphase hact => exact exclusive_setThread h hphase
  | acquire hfree hact hphase => exact exclusive_lock h hfree
  | @ask call hact hholds hask =>
      have hasking := exclusive_setThread_holder h (.asking call none) (h.thread t hholds)
      exact ⟨hasking.thread, hasking.main⟩
  | release w poisoned hholds hasked hphase hask =>
      exact exclusive_release h (h.thread t hholds) hphase w poisoned

theorem exclusive_of_mainMoves {s s' : Serving} {act : MainAct} (h : s.Exclusive)
    (hmoves : MainMoves s act s') : s'.Exclusive := by
  -- a free mutex has no thread working under it
  have hnobody (hfree : s.holder = none) (t : ThreadId) : ¬ (s.threads t).Holds := by
    intro hholds
    have hholder := h.thread t hholds
    rw [hfree] at hholder
    cases hholder
  cases hmoves with
  | outside hmain hact hmain' hholder hbusy hthreads =>
      exact ⟨fun t ht => hholder.trans (h.thread t (hthreads t ht)),
        fun hm => hholder.trans (h.main (hbusy hm))⟩
  | chooseReload hact hmain => exact ⟨h.thread, by simp [MainPhase.UnderMutex]⟩
  | acquire hact hfree => exact ⟨fun t ht => absurd ht (hnobody hfree t), fun _ => rfl⟩
  | panic hact hfree =>
      exact ⟨fun t ht => absurd ht (hnobody hfree t), by simp [MainPhase.UnderMutex]⟩
  | release hact hmain =>
      refine ⟨fun t ht => ?_, by simp [MainPhase.UnderMutex]⟩
      have hholder := h.thread t ht
      rw [h.main hmain] at hholder
      cases hholder
  | destroyWindow hact => exact ⟨h.thread, h.main⟩

/-- The step of the machine as a move of the thread that takes it. -/
theorem moves_of_step {crates : Crates} {role : ThreadId → ThreadRole} {s s' : Serving}
    {act : DialogAct} (h : (dialogMachine crates role).step s act = some s') :
    match act with
    | .main act => MainMoves s act s'
    | .thread t act => ThreadMoves s t act s' := by
  simp only [dialogMachine] at h
  split at h
  · cases h
  · cases act with
    | main act => exact moves_of_mainStep h
    | thread t act => exact moves_of_threadStep h

theorem exclusive_step {crates : Crates} {role : ThreadId → ThreadRole} {s s' : Serving}
    {act : DialogAct} (h : s.Exclusive)
    (hstep : (dialogMachine crates role).step s act = some s') : s'.Exclusive := by
  cases act with
  | main act => exact exclusive_of_mainMoves h (moves_of_step hstep)
  | thread t act => exact exclusive_of_threadMoves h (moves_of_step hstep)

/-- A thread that is not the asking holder can go on without an effect on who waits for the user. -/
theorem waitsForUser_setThread {s : Serving} {t : ThreadId} {phase : ThreadPhase}
    (hold : ∀ call, s.threads t ≠ .asking call none) (hnew : ∀ call, phase ≠ .asking call none) :
    (s.setThread t phase).waitsForUser = s.waitsForUser := by
  rw [Bool.eq_iff_iff, waitsForUser_iff, waitsForUser_iff]
  constructor
  -- neither phase of the thread waits for an answer, so the one that does is another thread's
  · rintro ⟨t', call, hholder, hphase⟩
    have hphase' : Function.update s.threads t phase t' = .asking call none := hphase
    by_cases heq : t' = t
    · rw [heq, Function.update_self] at hphase'
      exact absurd hphase' (hnew call)
    · rw [Function.update_of_ne heq] at hphase'
      exact ⟨t', call, hholder, hphase'⟩
  · rintro ⟨t', call, hholder, hphase⟩
    have heq : t' ≠ t := by
      rintro rfl
      exact hold call hphase
    refine ⟨t', call, hholder, ?_⟩
    show Function.update s.threads t phase t' = .asking call none
    rw [Function.update_of_ne heq, hphase]

theorem not_asking_of_not_holds {phase : ThreadPhase} (h : ¬ phase.Holds) (call : Call)
    (answer : Option Bool) : phase ≠ .asking call answer := by
  rintro rfl
  exact h trivial

/-- An action of a thread leads into the deadlock exactly when it asks while the main thread
waits. -/
theorem deadlocked_of_threadMoves_iff {s s' : Serving} {t : ThreadId} {act : ThreadAct}
    (h : s.Exclusive) (hnot : ¬ Deadlocked s) (hmoves : ThreadMoves s t act s') :
    ¬ Deadlocked s' ↔ Careful s (.thread t act) := by
  cases hmoves with
  | outside hout hphase hact =>
      have hwaits := waitsForUser_setThread (s := s) (t := t)
        (fun call => not_asking_of_not_holds hout call none)
        (fun call => not_asking_of_not_holds hphase call none)
      refine iff_of_true (fun hd => hnot ⟨hd.1, hwaits ▸ hd.2⟩) ?_
      cases act <;> first | exact trivial | exact absurd rfl hact
  | @acquire phase hfree hact hphase =>
      refine iff_of_true ?_ ?_
      · rintro ⟨-, hw⟩
        obtain ⟨t', call, hholder, hasking⟩ := waitsForUser_iff.1 hw
        simp only [Option.some.injEq, Owner.thread.injEq] at hholder
        subst hholder
        have hasking' : Function.update s.threads t phase t = .asking call none := hasking
        rw [Function.update_self] at hasking'
        exact hphase call hasking'
      · cases act <;> first | exact trivial | exact absurd rfl hact
  -- only asking can close the circle, and it does if the main thread waits
  | @ask call hact hholds hask =>
      subst hact
      have hwaits : ({ s.setThread t (.asking call none) with posted := s.posted ++ [t] } :
          Serving).waitsForUser = true := by
        refine waitsForUser_iff.2 ⟨t, call, h.thread t hholds, ?_⟩
        exact Function.update_self t _ _
      constructor
      · exact fun hnot' hmain => absurd ⟨hmain, hwaits⟩ hnot'
      · intro hcareful hd
        have hquiet := hcareful hd.1
        rw [hask] at hquiet
        cases hquiet
  | release w poisoned hholds hasked hphase hask =>
      apply iff_of_true (not_deadlocked_of_free rfl)
      cases act <;> first | exact trivial | exact fun _ => hask rfl

/-- An action of the main thread leads into the deadlock exactly when it is the choice to reload
while somebody waits for the user. -/
theorem deadlocked_of_mainMoves_iff {s s' : Serving} {act : MainAct} (hnot : ¬ Deadlocked s)
    (hmoves : MainMoves s act s') : ¬ Deadlocked s' ↔ Careful s (.main act) := by
  have hcareful (hact : act ≠ .chooseReload) : Careful s (.main act) := by
    cases act <;> first | exact trivial | exact absurd rfl hact
  cases hmoves with
  | outside hmain hact hmain' hholder hbusy hthreads =>
      exact iff_of_true (not_deadlocked_of_main hmain') (hcareful hact)
  | chooseReload hact hmain =>
      subst hact
      show ¬ (MainPhase.lockingReload = .lockingReload ∧ s.waitsForUser = true) ↔
        s.waitsForUser = false
      simp
  | acquire hact hfree => exact iff_of_true (not_deadlocked_of_main (by simp)) (hcareful hact)
  | panic hact hfree => exact iff_of_true (not_deadlocked_of_main (by simp)) (hcareful hact)
  | release hact hmain => exact iff_of_true (not_deadlocked_of_main (by simp)) (hcareful hact)
  | destroyWindow hact => exact iff_of_true hnot (hcareful (by simp [hact]))

/-- **The agent and its dialog.** No state of a run is deadlocked exactly when, throughout the run,
the user does not choose to reload while a confirmation is waited for under the mutex, and no
request for a signature with a stored key is handled while the main thread waits for the mutex. -/
theorem never_deadlocked_iff (crates : Crates) (role : ThreadId → ThreadRole) (w : World)
    (acts : List DialogAct) :
    (dialogMachine crates role).AllStates (fun s => ¬ Deadlocked s) (Serving.start w) acts ↔
      (dialogMachine crates role).AllSteps Careful (Serving.start w) acts := by
  refine Machine.allStates_iff_allSteps (J := Serving.Exclusive)
    (fun s act s' h _ _ hstep => exclusive_step h hstep) (fun s act s' h hnot hstep => ?_) acts
    (exclusive_start w) (not_deadlocked_of_free rfl)
  cases act with
  | main act => exact deadlocked_of_mainMoves_iff hnot (moves_of_step hstep)
  | thread t act => exact deadlocked_of_threadMoves_iff h hnot (moves_of_step hstep)

/-- A request for a signature is waiting for its confirmation when the user chooses to reload. -/
theorem reload_while_asking_deadlocks :
    ¬ (dialogMachine Reference.crates fun _ => .connection).AllStates (fun s => ¬ Deadlocked s)
      (Serving.start (emptyWorld true .none))
      [.thread 0 (.receive ⟨⟨"Unix", none⟩, addIdentityRequest smallKey "k"⟩),
        .thread 0 .lock, .thread 0 .handle,
        .thread 0 (.receive ⟨⟨"Unix", none⟩, signRequestMessage
          ((PublicKey.rsa 3 33).encode.toOption.getD []) [1, 2, 3] 4⟩),
        .thread 0 .lock, .thread 0 .handle, .main .openMenu, .main .chooseReload] := by
  decide +kernel

theorem deadlocked_step {crates : Crates} {role : ThreadId → ThreadRole} {s s' : Serving}
    {act : DialogAct} (h : s.Exclusive) (hd : Deadlocked s)
    (hstep : (dialogMachine crates role).step s act = some s') : Deadlocked s' := by
  obtain ⟨t, call, hholder, hasking⟩ := waitsForUser_iff.1 hd.2
  have hbusy : s.holder ≠ none := by simp [hholder]
  cases act with
  | main act =>
      cases moves_of_step hstep with
      | outside hmain => exact absurd hd.1 hmain
      | chooseReload hact hmain => exact absurd hd.1 hmain
      | acquire hact hfree => exact absurd hfree hbusy
      | panic hact hfree => exact absurd hfree hbusy
      | release hact hmain =>
          rcases hmain with hmain | hmain | hmain <;>
            exact absurd (hd.1.symm.trans hmain) (by simp)
      | destroyWindow hact => exact hd
  | thread t' act =>
      -- the holder is the thread that asks, and nobody else is under the mutex
      have hself (hholds : (s.threads t').Holds) : t' = t := by
        have hother := h.thread t' hholds
        rw [hholder, Option.some.injEq, Owner.thread.injEq] at hother
        exact hother.symm
      cases moves_of_step hstep with
      | outside hout hphase hact =>
          refine ⟨hd.1, ?_⟩
          rw [waitsForUser_setThread (fun call => not_asking_of_not_holds hout call none)
            (fun call => not_asking_of_not_holds hphase call none)]
          exact hd.2
      | acquire hfree hact hphase => exact absurd hfree hbusy
      | ask hact hholds hask =>
          rw [hself hholds, Serving.aboutToAsk, hasking] at hask
          cases hask
      | release w poisoned hholds hasked hphase hask =>
          exact absurd (hself hholds ▸ hasking) (hasked call)

/-- **No way out.** Once deadlocked, the process stays so, whatever the user and the clients do. -/
theorem deadlocked_run {crates : Crates} {role : ThreadId → ThreadRole} {s s' : Serving}
    (h : s.Exclusive) (hd : Deadlocked s) (acts : List DialogAct)
    (hrun : (dialogMachine crates role).run s acts = some s') : Deadlocked s' :=
  (Machine.run_invariant (I := fun s => s.Exclusive ∧ Deadlocked s)
    (fun _ _ _ hI hs => ⟨exclusive_step hI.1 hs, deadlocked_step hI.1 hI.2 hs⟩) acts ⟨h, hd⟩
    hrun).2

end SshKeys
