import SshKeys.Dialog

/-!
# Confirmations

What becomes of the dialogs of `ask_confirmation` in the serving process of `Dialog`. The message
that opens a dialog carries a pointer into the stack of the thread that asks, and the dialog keeps
it until it is answered, so both must belong to a thread that still waits (`one_dialog`).

A thread waits with the mutex held. `mutex_released_iff` says from which states the mutex can still
be released, and `never_stuck_iff` which runs stay in them.
-/

set_option autoImplicit false

namespace SshKeys

open Lib

/-! ## What a step does -/

/-- The menu opens or closes, and no command of it waits for the mutex. -/
def MainAct.OfMenu : MainAct → Prop
  | .openMenu => True
  | .dismissMenu => True
  | .chooseExit => True
  | _ => False

/-- What the main thread does with an action. -/
inductive MainDoes (crates : Crates) (s : Serving) : MainAct → Serving → Prop where
  | showConfirmation {t : ThreadId} {posted : List ThreadId} :
      s.posted = t :: posted → s.main = .loop → s.closing = none →
      MainDoes crates s .showConfirmation { s with posted, dialogs := t :: s.dialogs }
  | dropConfirmation : s.main.Pumps → s.main ≠ .loop →
      MainDoes crates s .dropConfirmation { s with posted := s.posted.tail }
  | click {t : ThreadId} {answer : Bool} : s.main.Pumps → t ∈ s.dialogs → s.closing = none →
      MainDoes crates s (.click t answer)
        { s with
          dialogs := s.dialogs.erase t
          closing := some t
          threads := Function.update s.threads t ((s.threads t).answered answer) }
  | destroyWindow {t : ThreadId} : s.closing = some t →
      MainDoes crates s .destroyWindow { s with closing := none }
  | menu {act : MainAct} {phase : MainPhase} (quitPosted : Bool) : act.OfMenu →
      (s.main.withMenu = some phase ∨ s.main.withoutMenu = some phase) →
      MainDoes crates s act { s with main := phase, quitPosted }
  | chooseReload {phase : MainPhase} : s.main.withoutMenu = some phase →
      MainDoes crates s .chooseReload { s with main := .lockingReload }
  | lockReload : s.main = .lockingReload → s.holder = none → s.poisoned = false →
      MainDoes crates s .lockReload { s with main := .reloading, holder := some .main }
  | panic : s.main = .lockingReload → s.holder = none → s.poisoned = true →
      MainDoes crates s .lockReload { s with main := .exited }
  | reloaded {fault : LoadFault} {config : Config} : s.main = .reloading →
      Config.reload crates fault s.world.file s.world.config = (.ok (), config) →
      MainDoes crates s (.reload fault)
        { s with world := { s.world with config }, main := .loop, holder := none }
  | reloadFails {fault : LoadFault} : s.main = .reloading →
      (Config.reload crates fault s.world.file s.world.config).1 ≠ .ok () →
      MainDoes crates s (.reload fault) { s with main := .errorBox }
  | closeErrorBox : s.main = .errorBox →
      MainDoes crates s .closeErrorBox { s with main := .loop, holder := none }
  | quit : s.main = .loop → s.posted = [] → MainDoes crates s .quit { s with main := .exited }

theorem mainDoes_of_mainStep {crates : Crates} {s s' : Serving} {act : MainAct}
    (h : s.mainStep crates act = some s') : MainDoes crates s act s' := by
  rcases mainStep_eq_some h with ⟨⟨t, hclosing⟩, rfl, rfl⟩ | ⟨hclosing, h⟩
  · exact .destroyWindow hclosing
  cases act with
  | showConfirmation =>
      simp only [Serving.messageStep] at h
      split at h
      · next t posted hposted =>
          split at h
          · next hmain =>
              rw [← Option.some.inj h]
              exact .showConfirmation hposted hmain hclosing
          · cases h
      · cases h
  | dropConfirmation =>
      simp only [Serving.messageStep] at h
      split at h
      · next hmain =>
          rw [← Option.some.inj h]
          exact .dropConfirmation hmain.1 hmain.2
      · cases h
  | click t answer =>
      simp only [Serving.messageStep] at h
      split at h
      · next hmain =>
          rw [← Option.some.inj h]
          exact .click hmain.1 hmain.2 hclosing
      · cases h
  | destroyWindow => cases h
  | openMenu =>
      obtain ⟨phase, hphase, rfl⟩ := Option.map_eq_some_iff.1 h
      exact .menu s.quitPosted trivial (Or.inl hphase)
  | dismissMenu =>
      obtain ⟨phase, hphase, rfl⟩ := Option.map_eq_some_iff.1 h
      exact .menu s.quitPosted trivial (Or.inr hphase)
  | chooseExit =>
      obtain ⟨phase, hphase, rfl⟩ := Option.map_eq_some_iff.1 h
      exact .menu true trivial (Or.inr hphase)
  | chooseReload =>
      obtain ⟨phase, hphase, rfl⟩ := Option.map_eq_some_iff.1 h
      exact .chooseReload hphase
  | lockReload =>
      simp only [Serving.messageStep] at h
      split at h
      · next hmain =>
          split at h
          · next hp =>
              rw [← Option.some.inj h]
              exact .panic hmain.1 hmain.2 hp
          · next hp =>
              rw [← Option.some.inj h]
              exact .lockReload hmain.1 hmain.2 (by simpa using hp)
      · cases h
  | reload fault =>
      simp only [Serving.messageStep] at h
      split at h
      · next hmain =>
          split at h
          · next config hreload =>
              rw [← Option.some.inj h]
              exact .reloaded hmain hreload
          · next hreload =>
              rw [← Option.some.inj h]
              exact .reloadFails hmain fun hok => hreload _ (Prod.ext hok rfl)
      · cases h
  | closeErrorBox =>
      simp only [Serving.messageStep] at h
      split at h
      · next hmain =>
          rw [← Option.some.inj h]
          exact .closeErrorBox hmain
      · cases h
  | quit =>
      simp only [Serving.messageStep] at h
      split at h
      · next hmain =>
          rw [← Option.some.inj h]
          exact .quit hmain.1 hmain.2.2
      · cases h

/-- What a thread does with an action. -/
inductive ThreadDoes (crates : Crates) (s : Serving) (t : ThreadId) :
    ThreadAct → Serving → Prop where
  | describe {sys : Desktop} {pid : Pid} : s.threads t = .running →
      ThreadDoes crates s t (.describe sys pid) (s.setThread t (.lockingDescribe sys pid))
  | receive {call : Call} : s.threads t = .running →
      ThreadDoes crates s t (.receive call) (s.setThread t (.locking call))
  /-- Locking a poisoned mutex is a panic. -/
  | die : ((∃ sys pid, s.threads t = .lockingDescribe sys pid) ∨
        ∃ call, s.threads t = .locking call) →
      s.holder = none → s.poisoned = true → ThreadDoes crates s t .lock (s.setThread t .dead)
  | lockDescribe {sys : Desktop} {pid : Pid} : s.threads t = .lockingDescribe sys pid →
      s.holder = none → s.poisoned = false →
      ThreadDoes crates s t .lock
        { s.setThread t (.describing sys pid) with holder := some (.thread t) }
  | lock {call : Call} : s.threads t = .locking call → s.holder = none → s.poisoned = false →
      ThreadDoes crates s t .lock
        { s.setThread t (.handling call) with holder := some (.thread t) }
  | finishDescribe {sys : Desktop} {pid : Pid} : s.threads t = .describing sys pid →
      WalkEnds sys.toWindows pid →
      ThreadDoes crates s t .finishDescribe { s.setThread t .running with holder := none }
  | panicDescribe {sys : Desktop} {pid : Pid} : s.threads t = .describing sys pid →
      sys.describeClient pid = some .panic →
      ThreadDoes crates s t .finishDescribe
        { s.setThread t .dead with holder := none, poisoned := true }
  | ask {call : Call} : s.threads t = .handling call → asksConfirmation s.world call.buf = true →
      ThreadDoes crates s t .handle
        { s.setThread t (.asking call none) with posted := s.posted ++ [t] }
  | handle {call : Call} : s.threads t = .handling call →
      asksConfirmation s.world call.buf = false →
      ThreadDoes crates s t .handle (s.finish crates t call s.world)
  | receiveAnswer {call : Call} {answer : Bool} : s.threads t = .asking call (some answer) →
      ThreadDoes crates s t .receiveAnswer (s.finish crates t call
        { s.world with confirms := Stream'.cons answer s.world.confirms })

theorem threadDoes_of_lockAs {crates : Crates} {s s' : Serving} {t : ThreadId}
    {phase : ThreadPhase}
    (hwaits : (∃ sys pid, s.threads t = .lockingDescribe sys pid) ∨
      ∃ call, s.threads t = .locking call)
    (hlock : s.holder = none → s.poisoned = false → ThreadDoes crates s t .lock
      { s.setThread t phase with holder := some (.thread t) })
    (h : s.lockAs t phase = some s') : ThreadDoes crates s t .lock s' := by
  rw [Serving.lockAs] at h
  split at h
  · next hfree =>
      cases hp : s.poisoned with
      | true =>
          rw [hp, if_pos rfl] at h
          rw [← Option.some.inj h]
          exact .die hwaits hfree hp
      | false =>
          rw [hp, if_neg (by simp)] at h
          rw [← Option.some.inj h]
          exact hlock hfree hp
  · cases h

theorem threadDoes_of_threadStep {crates : Crates} {role : ThreadId → ThreadRole}
    {s s' : Serving} {t : ThreadId} {act : ThreadAct}
    (h : s.threadStep crates role t act = some s') : ThreadDoes crates s t act s' := by
  unfold Serving.threadStep at h
  split at h
  · next hphase =>
      split at h
      · rw [← Option.some.inj h]
        exact .describe hphase
      · cases h
  · next hphase =>
      split at h
      · rw [← Option.some.inj h]
        exact .receive hphase
      · cases h
  · next sys pid hphase =>
      exact threadDoes_of_lockAs (Or.inl ⟨sys, pid, hphase⟩) (.lockDescribe hphase) h
  · next call hphase => exact threadDoes_of_lockAs (Or.inr ⟨call, hphase⟩) (.lock hphase) h
  · next sys pid hphase =>
      rcases described_eq_some h with ⟨hpanic, rfl⟩ | ⟨⟨result, hresult, -⟩, rfl⟩
      · exact .panicDescribe hphase hpanic
      · refine .finishDescribe hphase ?_
        by_contra hnot
        rw [(describeClient_eq_none_iff sys).2 hnot] at hresult
        cases hresult
  · next call hphase =>
      split at h
      · next hask =>
          rw [← Option.some.inj h]
          exact .ask hphase hask
      · next hask =>
          rw [← Option.some.inj h]
          exact .handle hphase (by simpa using hask)
  · next call answer hphase =>
      rw [← Option.some.inj h]
      exact .receiveAnswer hphase
  · cases h

/-- What a step of the process is. -/
theorem does_of_step {crates : Crates} {role : ThreadId → ThreadRole} {s s' : Serving}
    {act : DialogAct} (h : (dialogMachine crates role).step s act = some s') :
    s.main ≠ .exited ∧
      match act with
      | .main act => MainDoes crates s act s'
      | .thread t act => ThreadDoes crates s t act s' := by
  simp only [dialogMachine] at h
  split at h
  · cases h
  · next hmain =>
      refine ⟨hmain, ?_⟩
      cases act with
      | main act => exact mainDoes_of_mainStep h
      | thread t act => exact threadDoes_of_threadStep h

/-! ## One dialog -/

/-- The confirmations that are posted or on the screen. -/
def Serving.confirmations (s : Serving) : List ThreadId := s.posted ++ s.dialogs

/-- The thread is in `ask_confirmation`, with the mutex and without an answer. -/
def Serving.Asks (s : Serving) (t : ThreadId) : Prop :=
  s.holder = some (.thread t) ∧ ∃ call, s.threads t = .asking call none

/-- There is one confirmation at most, and it belongs to a thread that waits for its answer. No
other dialog is on the screen with one that is to be destroyed. The holder of the mutex is at work
under it, or it is the main thread that waits for it again. -/
structure Serving.OneDialog (s : Serving) : Prop where
  exclusive : s.Exclusive
  asks : ∀ t ∈ s.confirmations, s.Asks t
  one : s.confirmations.length ≤ 1
  closing : s.closing ≠ none → s.dialogs = []
  heldByThread : ∀ t, s.holder = some (.thread t) → (s.threads t).Holds
  heldByMain : s.holder = some .main → s.main.UnderMutex ∨ s.main = .lockingReload

theorem Serving.Asks.eq {s : Serving} {t t' : ThreadId} (h : s.Asks t) (h' : s.Asks t') :
    t = t' := by
  have heq := h.1.symm.trans h'.1
  rwa [Option.some.injEq, Owner.thread.injEq] at heq

theorem Serving.OneDialog.confirmations_eq_nil {s : Serving} (h : s.OneDialog)
    (hnot : ∀ t, ¬ s.Asks t) : s.confirmations = [] := by
  rw [List.eq_nil_iff_forall_not_mem]
  intro t ht
  exact hnot t (h.asks t ht)

theorem not_asks_of_free {s : Serving} (h : s.holder = none) (t : ThreadId) : ¬ s.Asks t := by
  rintro ⟨hholder, -⟩
  rw [h] at hholder
  cases hholder

theorem not_asks_of_main {s : Serving} (h : s.holder = some .main) (t : ThreadId) : ¬ s.Asks t := by
  rintro ⟨hholder, -⟩
  rw [h] at hholder
  cases hholder

/-- The holder is the only thread that can ask. -/
theorem not_asks_of_holder {s : Serving} {t : ThreadId} (h : s.holder = some (.thread t))
    (hphase : ∀ call, s.threads t ≠ .asking call none) (t' : ThreadId) : ¬ s.Asks t' := by
  rintro ⟨hholder, call, hasking⟩
  rw [h, Option.some.injEq, Owner.thread.injEq] at hholder
  exact hphase call (hholder ▸ hasking)

/-- Where nobody asks there is no confirmation, and none appears when the mutex is released. -/
theorem oneDialog_of_free {s s' : Serving} (h : s.OneDialog) (hnot : ∀ t, ¬ s.Asks t)
    (hexclusive : s'.Exclusive) (hsame : s'.confirmations = s.confirmations)
    (hfree : s'.holder = none) : s'.OneDialog where
  closing _ := by
    have hnone := hsame.trans (h.confirmations_eq_nil hnot)
    exact (List.append_eq_nil_iff.1 hnone).2
  exclusive := hexclusive
  asks t ht := by
    rw [hsame, h.confirmations_eq_nil hnot] at ht
    cases ht
  one := by
    rw [hsame]
    exact h.one
  heldByThread t hheld := by
    rw [hfree] at hheld
    cases hheld
  heldByMain hheld := by
    rw [hfree] at hheld
    cases hheld

theorem oneDialog_start (w : World) : (Serving.start w).OneDialog where
  exclusive := exclusive_start w
  closing _ := rfl
  asks t ht := by cases ht
  one := Nat.zero_le 1
  heldByThread t h := by cases h
  heldByMain h := by cases h

section Threads

variable {s : Serving} {t : ThreadId} {phase : ThreadPhase}

theorem asks_setThread (hphase : ∀ call, s.threads t ≠ .asking call none) {t' : ThreadId}
    (h : s.Asks t') : (s.setThread t phase).Asks t' := by
  obtain ⟨hholder, call, hasking⟩ := h
  have hne : t' ≠ t := by
    rintro rfl
    exact hphase call hasking
  refine ⟨hholder, call, ?_⟩
  show Function.update s.threads t phase t' = .asking call none
  rw [Function.update_of_ne hne, hasking]

/-- A thread goes on outside the mutex. -/
theorem oneDialog_outside (h : s.OneDialog) (hout : ¬ (s.threads t).Holds)
    (hexclusive : (s.setThread t phase).Exclusive) : (s.setThread t phase).OneDialog where
  exclusive := hexclusive
  closing := h.closing
  asks t' ht' :=
    asks_setThread (fun call => not_asking_of_not_holds hout call none) (h.asks t' ht')
  one := h.one
  heldByThread t' hholder := by
    have hne : t' ≠ t := by
      rintro rfl
      exact hout (h.heldByThread t' hholder)
    show (Function.update s.threads t phase t').Holds
    rw [Function.update_of_ne hne]
    exact h.heldByThread t' hholder
  heldByMain := h.heldByMain

/-- A thread takes the free mutex. -/
theorem oneDialog_lock (h : s.OneDialog) (hfree : s.holder = none) (hphase : phase.Holds)
    (hexclusive : ({ s.setThread t phase with holder := some (.thread t) } : Serving).Exclusive) :
    ({ s.setThread t phase with holder := some (.thread t) } : Serving).OneDialog := by
  have hnone := h.confirmations_eq_nil (not_asks_of_free hfree)
  refine ⟨hexclusive, ?_, ?_, h.closing, ?_, ?_⟩
  · intro t' ht'
    have hmem : t' ∈ s.confirmations := ht'
    rw [hnone] at hmem
    cases hmem
  · exact h.one
  · rintro t' hholder
    simp only [Option.some.injEq, Owner.thread.injEq] at hholder
    subst hholder
    show (Function.update s.threads t phase t).Holds
    rwa [Function.update_self]
  · intro hholder
    cases hholder

end Threads

theorem oneDialog_of_threadDoes {crates : Crates} {s s' : Serving} {t : ThreadId} {act : ThreadAct}
    (h : s.OneDialog) (hexclusive : s'.Exclusive) (hdoes : ThreadDoes crates s t act s') :
    s'.OneDialog := by
  have hout {phase : ThreadPhase} (hphase : s.threads t = phase) (hnot : ¬ phase.Holds) :
      ¬ (s.threads t).Holds := by
    rwa [hphase]
  have hholder {phase : ThreadPhase} (hphase : s.threads t = phase) (hholds : phase.Holds) :
      s.holder = some (.thread t) := h.exclusive.thread t (by rwa [hphase])
  cases hdoes with
  | describe hphase => exact oneDialog_outside h (hout hphase not_false) hexclusive
  | receive hphase => exact oneDialog_outside h (hout hphase not_false) hexclusive
  | die hwaits hfree hp =>
      rcases hwaits with ⟨sys, pid, hphase⟩ | ⟨call, hphase⟩
      · exact oneDialog_outside h (hout hphase not_false) hexclusive
      · exact oneDialog_outside h (hout hphase not_false) hexclusive
  | lockDescribe hphase hfree hp => exact oneDialog_lock h hfree trivial hexclusive
  | lock hphase hfree hp => exact oneDialog_lock h hfree trivial hexclusive
  | finishDescribe hphase hends =>
      exact oneDialog_of_free h (not_asks_of_holder (hholder hphase trivial) (by simp [hphase]))
        hexclusive rfl rfl
  | panicDescribe hphase hpanic =>
      exact oneDialog_of_free h (not_asks_of_holder (hholder hphase trivial) (by simp [hphase]))
        hexclusive rfl rfl
  | @ask call hphase hask =>
      have hheld := hholder hphase trivial
      have hnone := h.confirmations_eq_nil (not_asks_of_holder hheld (by simp [hphase]))
      obtain ⟨hposted, hdialogs⟩ := List.append_eq_nil_iff.1 hnone
      have hself : (s.setThread t (.asking call none)).threads t = .asking call none :=
        Function.update_self t _ _
      refine ⟨hexclusive, ?_, ?_, h.closing, ?_, ?_⟩
      · intro t' ht'
        have hmem : t' ∈ (s.posted ++ [t]) ++ s.dialogs := ht'
        rw [hposted, hdialogs, List.nil_append, List.append_nil, List.mem_singleton] at hmem
        subst hmem
        exact ⟨hheld, call, hself⟩
      · show ((s.posted ++ [t]) ++ s.dialogs).length ≤ 1
        rw [hposted, hdialogs]
        exact Nat.le_refl 1
      · intro t' hheld'
        have heq := hheld.symm.trans hheld'
        rw [Option.some.injEq, Owner.thread.injEq] at heq
        subst heq
        show ((s.setThread t (.asking call none)).threads t).Holds
        rw [hself]
        exact trivial
      · intro hmain
        have heq := hheld.symm.trans hmain
        cases heq
  | @handle call hphase hask =>
      obtain ⟨phase, w', poisoned, -, heq⟩ := finish_eq crates s t call s.world
      rw [heq] at hexclusive ⊢
      exact oneDialog_of_free h (not_asks_of_holder (hholder hphase trivial) (by simp [hphase]))
        hexclusive rfl rfl
  | @receiveAnswer call answer hphase =>
      obtain ⟨phase, w', poisoned, -, heq⟩ := finish_eq crates s t call
        { s.world with confirms := Stream'.cons answer s.world.confirms }
      rw [heq] at hexclusive ⊢
      exact oneDialog_of_free h (not_asks_of_holder (hholder hphase trivial) (by simp [hphase]))
        hexclusive rfl rfl

/-- What the confirmation on the screen is answered with goes to the thread that asks. -/
theorem click_cases {s : Serving} {t : ThreadId} (h : s.OneDialog) (hmem : t ∈ s.dialogs) :
    s.posted = [] ∧ s.dialogs = [t] ∧ s.Asks t := by
  have hasks := h.asks t (List.mem_append_right s.posted hmem)
  have hone : (s.posted ++ s.dialogs).length ≤ 1 := h.one
  rw [List.length_append] at hone
  have hpos := List.length_pos_of_mem hmem
  have hposted : s.posted = [] := List.eq_nil_of_length_eq_zero (by omega)
  obtain ⟨t', ht'⟩ := List.length_eq_one_iff.1 (show s.dialogs.length = 1 by omega)
  rw [ht', List.mem_singleton] at hmem
  exact ⟨hposted, by rw [ht', hmem], hasks⟩

theorem oneDialog_of_mainDoes {crates : Crates} {s s' : Serving} {act : MainAct}
    (h : s.OneDialog) (hexclusive : s'.Exclusive) (hdoes : MainDoes crates s act s') :
    s'.OneDialog := by
  have hnotMain (hmain : s.main = .loop) : s.holder ≠ some .main := by
    intro hheld
    have hbusy := h.heldByMain hheld
    simp [hmain, MainPhase.UnderMutex] at hbusy
  cases hdoes with
  | @showConfirmation t posted hposted hmain hclosing =>
      have hone : (s.posted ++ s.dialogs).length ≤ 1 := h.one
      rw [hposted] at hone
      refine ⟨hexclusive, ?_, ?_, fun hne => absurd hclosing hne, h.heldByThread, h.heldByMain⟩
      · intro t' ht'
        apply h.asks t'
        have hmem : t' ∈ posted ++ t :: s.dialogs := ht'
        rw [Serving.confirmations, hposted]
        simpa [or_left_comm] using hmem
      · show (posted ++ t :: s.dialogs).length ≤ 1
        simp only [List.length_append, List.length_cons] at hone ⊢
        omega
  | dropConfirmation hpumps hloop =>
      have hsub : (s.posted.tail ++ s.dialogs).Sublist s.confirmations :=
        (List.tail_sublist s.posted).append_right s.dialogs
      exact ⟨hexclusive, fun t ht => h.asks t (hsub.mem ht), hsub.length_le.trans h.one,
        h.closing, h.heldByThread, h.heldByMain⟩
  | @click t answer hpumps hmem hclosing =>
      obtain ⟨hposted, hdialogs, hholder, call, hasking⟩ := click_cases h hmem
      have hnone : s.posted ++ s.dialogs.erase t = [] := by
        rw [hposted, hdialogs]
        simp
      refine ⟨hexclusive, ?_, ?_, fun _ => (List.append_eq_nil_iff.1 hnone).2, ?_, h.heldByMain⟩
      · intro t' ht'
        have hmem' : t' ∈ s.posted ++ s.dialogs.erase t := ht'
        rw [hnone] at hmem'
        cases hmem'
      · show (s.posted ++ s.dialogs.erase t).length ≤ 1
        rw [hnone]
        exact Nat.zero_le 1
      · intro t' hheld
        have heq := hholder.symm.trans hheld
        rw [Option.some.injEq, Owner.thread.injEq] at heq
        subst heq
        show (Function.update s.threads t ((s.threads t).answered answer) t).Holds
        rw [Function.update_self, hasking]
        exact trivial
  | @menu _ phase quitPosted hact hphase =>
      refine ⟨hexclusive, h.asks, h.one, h.closing, h.heldByThread, ?_⟩
      intro hheld
      left
      have hbusy := h.heldByMain hheld
      rcases hphase with hphase | hphase <;> cases hm : s.main <;> rw [hm] at hphase hbusy <;>
        cases hphase <;> simp_all [MainPhase.UnderMutex]
  | chooseReload hphase =>
      exact ⟨hexclusive, h.asks, h.one, h.closing, h.heldByThread, fun _ => Or.inr rfl⟩
  | lockReload hmain hfree hp =>
      have hnone := h.confirmations_eq_nil (not_asks_of_free hfree)
      refine ⟨hexclusive, ?_, h.one, h.closing, ?_, fun _ => Or.inl (Or.inl rfl)⟩
      · intro t ht
        have hmem : t ∈ s.confirmations := ht
        rw [hnone] at hmem
        cases hmem
      · intro t hheld
        cases hheld
  | panic hmain hfree hp =>
      refine ⟨hexclusive, h.asks, h.one, h.closing, h.heldByThread, ?_⟩
      intro hheld
      have heq : (none : Option Owner) = some .main := hfree.symm.trans hheld
      cases heq
  | reloaded hmain hreload =>
      have hheld := h.exclusive.main (Or.inl hmain)
      exact oneDialog_of_free h (not_asks_of_main hheld) hexclusive rfl rfl
  | reloadFails hmain hreload =>
      exact ⟨hexclusive, h.asks, h.one, h.closing, h.heldByThread,
        fun _ => Or.inl (Or.inr (Or.inl rfl))⟩
  | closeErrorBox hmain =>
      have hheld := h.exclusive.main (Or.inr (Or.inl hmain))
      exact oneDialog_of_free h (not_asks_of_main hheld) hexclusive rfl rfl
  | quit hmain hposted =>
      exact ⟨hexclusive, h.asks, h.one, h.closing, h.heldByThread,
        fun hheld => absurd hheld (hnotMain hmain)⟩
  | destroyWindow hclosing =>
      exact ⟨hexclusive, h.asks, h.one, fun hne => absurd rfl hne, h.heldByThread, h.heldByMain⟩

theorem oneDialog_step {crates : Crates} {role : ThreadId → ThreadRole} {s s' : Serving}
    {act : DialogAct} (h : s.OneDialog)
    (hstep : (dialogMachine crates role).step s act = some s') : s'.OneDialog := by
  have hexclusive := exclusive_step h.exclusive hstep
  obtain ⟨-, hdoes⟩ := does_of_step hstep
  cases act with
  | main act => exact oneDialog_of_mainDoes h hexclusive hdoes
  | thread t act => exact oneDialog_of_threadDoes h hexclusive hdoes

theorem oneDialog_of_run {crates : Crates} {role : ThreadId → ThreadRole} {w : World}
    {acts : List DialogAct} {s : Serving}
    (hrun : (dialogMachine crates role).run (Serving.start w) acts = some s) : s.OneDialog :=
  Machine.run_invariant (fun _ _ _ hI hs => oneDialog_step hI hs) acts (oneDialog_start w) hrun

/-- **One dialog at a time.** In every state that the process can get to, one dialog at most is on
the screen, and one confirmation at most is posted or on the screen without an answer; the thread
that it points into is in `ask_confirmation`, holds the mutex and has no answer yet. A click is the
answer to this thread and changes no other one, and all that the main thread can do after it is to
destroy the dialog. -/
theorem one_dialog (crates : Crates) (role : ThreadId → ThreadRole) (w : World)
    (acts : List DialogAct) (s : Serving)
    (hrun : (dialogMachine crates role).run (Serving.start w) acts = some s) :
    (s.dialogs ++ s.closing.toList).length ≤ 1 ∧ s.confirmations.length ≤ 1 ∧
      (∀ t ∈ s.confirmations, s.Asks t) ∧
      (∀ t answer s', (dialogMachine crates role).step s (.main (.click t answer)) = some s' →
        ∃ call, s.threads t = .asking call none ∧
          s'.threads = Function.update s.threads t (.asking call (some answer)) ∧
          s'.confirmations = [] ∧ s'.closing = some t) ∧
      ∀ t act s', s.closing = some t → (dialogMachine crates role).step s (.main act) = some s' →
        act = .destroyWindow ∧ s' = { s with closing := none } := by
  have h := oneDialog_of_run hrun
  refine ⟨?_, h.one, h.asks, ?_, ?_⟩
  · cases hclosing : s.closing with
    | none =>
        have hone : (s.posted ++ s.dialogs).length ≤ 1 := h.one
        rw [List.length_append] at hone
        simp only [Option.toList_none, List.append_nil]
        omega
    | some t =>
        rw [h.closing (by simp [hclosing])]
        exact Nat.le_refl 1
  · intro t answer s' hstep
    obtain ⟨-, hdoes⟩ := does_of_step hstep
    cases hdoes with
    | click hpumps hmem hclosing =>
        obtain ⟨hposted, hdialogs, -, call, hasking⟩ := click_cases h hmem
        refine ⟨call, hasking, ?_, ?_, rfl⟩
        · rw [hasking]
          rfl
        · show s.posted ++ s.dialogs.erase t = []
          rw [hposted, hdialogs]
          simp
    | menu quitPosted hact hphase => exact absurd hact not_false
  · intro t act s' hclosing hstep
    have hmain := (does_of_step hstep).1
    simp only [dialogMachine, if_neg hmain] at hstep
    rcases mainStep_eq_some hstep with ⟨-, hact, hs'⟩ | ⟨hnone, -⟩
    · exact ⟨hact, hs'⟩
    · rw [hclosing] at hnone
      cases hnone

/-- A client stores a key and asks for a signature with it, and the dialog is on the screen. -/
def askingRun : List DialogAct :=
  [.thread 0 (.receive ⟨⟨"Unix", none⟩, addIdentityRequest smallKey "k"⟩),
    .thread 0 .lock, .thread 0 .handle,
    .thread 0 (.receive ⟨⟨"Unix", none⟩, signRequestMessage
      ((PublicKey.rsa 3 33).encode.toOption.getD []) [1, 2, 3] 4⟩),
    .thread 0 .lock, .thread 0 .handle, .main .showConfirmation]

theorem exists_run_askingRun :
    ∃ s, (dialogMachine Reference.crates fun _ => .connection).run
      (Serving.start (emptyWorld true .none)) askingRun = some s ∧ s.dialogs = [0] ∧
        s.main = .loop := by
  have hrun : ((dialogMachine Reference.crates fun _ => .connection).run
      (Serving.start (emptyWorld true .none)) askingRun).any
        (fun s => decide (s.dialogs = [0] ∧ s.main = .loop)) = true := by decide +kernel
  obtain ⟨s, hs, hshown⟩ := (Option.any_eq_true _ _).1 hrun
  exact ⟨s, hs, of_decide_eq_true hshown⟩

theorem one_dialog_asking :
    ∃ s, s.dialogs = [0] ∧ (dialogMachine Reference.crates fun _ => .connection).run
        (Serving.start (emptyWorld true .none)) askingRun = some s ∧ s.Asks 0 := by
  obtain ⟨s, hs, hdialogs, -⟩ := exists_run_askingRun
  have h := one_dialog Reference.crates (fun _ => .connection) (emptyWorld true .none) askingRun s
    hs
  refine ⟨s, hdialogs, hs, h.2.2.1 0 ?_⟩
  rw [Serving.confirmations, hdialogs]
  simp

/-! ## Stuck processes -/

/-- The thread asks, and its message is neither in the queue nor on the screen. -/
def Serving.Lost (s : Serving) (t : ThreadId) : Prop := s.Asks t ∧ t ∉ s.confirmations

/-- The main thread waits for a mutex that cannot be released without it: it holds the mutex itself,
or the holder needs it for a dialog. -/
structure Serving.MainBlocked (s : Serving) : Prop where
  waits : s.main = .lockingReload
  held : s.holder = some .main ∨ ∃ t, s.Asks t ∨ s.aboutToAsk t = true

/-- The thread describes a client from which the walk to the ancestors has no end. -/
def Serving.WalksForEver (s : Serving) (t : ThreadId) : Prop :=
  ∃ sys pid, s.threads t = .describing sys pid ∧ ¬ WalkEnds sys.toWindows pid

/-- The mutex is not released any more. -/
def Serving.Stuck (s : Serving) : Prop :=
  (∃ t, s.Lost t) ∨ (∃ t, s.WalksForEver t) ∨ s.MainBlocked

theorem aboutToAsk_iff {s : Serving} {t : ThreadId} :
    s.aboutToAsk t = true ↔
      ∃ call, s.threads t = .handling call ∧ asksConfirmation s.world call.buf = true := by
  rw [Serving.aboutToAsk]
  cases hphase : s.threads t <;> simp

theorem Serving.WalksForEver.holder {s : Serving} {t : ThreadId} (hwalks : s.WalksForEver t)
    (h : s.Exclusive) : s.holder = some (.thread t) := by
  obtain ⟨sys, pid, hphase, -⟩ := hwalks
  exact h.thread t (by rw [hphase]; exact trivial)

/-- A process whose mutex is free is not stuck. -/
theorem not_stuck_of_free {s : Serving} (h : s.Exclusive) (hfree : s.holder = none) :
    ¬ s.Stuck := by
  rintro (⟨t, hasks, -⟩ | ⟨t, hwalks⟩ | ⟨-, hheld | ⟨t, hasks | habout⟩⟩)
  · exact not_asks_of_free hfree t hasks
  · have hholder := hwalks.holder h
    rw [hfree] at hholder
    cases hholder
  · rw [hfree] at hheld
    cases hheld
  · exact not_asks_of_free hfree t hasks
  · obtain ⟨call, hphase, -⟩ := aboutToAsk_iff.1 habout
    have hholder := h.thread t (by rw [hphase]; exact trivial)
    rw [hfree] at hholder
    cases hholder

/-- Where no thread asks or walks and the main thread does not wait, nothing is stuck. -/
theorem not_stuck_of_nobody {s : Serving} (hnobody : ∀ t, ¬ s.Asks t)
    (hnowalk : ∀ t, ¬ s.WalksForEver t) (hwaits : s.main ≠ .lockingReload) : ¬ s.Stuck := by
  rintro (⟨t, hasks, -⟩ | ⟨t, hwalks⟩ | hblocked)
  · exact hnobody t hasks
  · exact hnowalk t hwalks
  · exact hwaits hblocked.waits

theorem not_walks_of_main {s : Serving} (h : s.Exclusive) (hholder : s.holder = some .main)
    (t : ThreadId) : ¬ s.WalksForEver t := by
  intro hwalks
  have hother := hwalks.holder h
  rw [hholder] at hother
  cases hother

/-- The holder is the only thread that can walk. -/
theorem not_walks_of_holder {s : Serving} {t : ThreadId} (h : s.Exclusive)
    (hholder : s.holder = some (.thread t))
    (hphase : ∀ sys pid, s.threads t ≠ .describing sys pid) (t' : ThreadId) :
    ¬ s.WalksForEver t' := by
  intro hwalks
  have hother := hwalks.holder h
  rw [hholder, Option.some.injEq, Owner.thread.injEq] at hother
  subst hother
  obtain ⟨sys, pid, hdescribing, -⟩ := hwalks
  exact hphase sys pid hdescribing

section Outside

variable {s : Serving} {t : ThreadId} {phase : ThreadPhase} (hout : ¬ (s.threads t).Holds)
  (hphase : ¬ phase.Holds)

include hout hphase

/-- What a thread does outside the mutex has no effect on who asks, -/
theorem asks_setThread_iff (t' : ThreadId) : (s.setThread t phase).Asks t' ↔ s.Asks t' := by
  constructor
  · rintro ⟨hholder, call, hasking⟩
    refine ⟨hholder, call, ?_⟩
    have hupdate : Function.update s.threads t phase t' = .asking call none := hasking
    by_cases heq : t' = t
    · rw [heq, Function.update_self] at hupdate
      exact absurd hupdate (not_asking_of_not_holds hphase call none)
    · rwa [Function.update_of_ne heq] at hupdate
  · exact asks_setThread fun call => not_asking_of_not_holds hout call none

/-- nor on who is about to. -/
theorem aboutToAsk_setThread_iff (t' : ThreadId) :
    (s.setThread t phase).aboutToAsk t' = true ↔ s.aboutToAsk t' = true := by
  rw [aboutToAsk_iff, aboutToAsk_iff]
  by_cases heq : t' = t
  · subst heq
    apply iff_of_false
    · rintro ⟨call, hhandling, -⟩
      have hupdate : Function.update s.threads t' phase t' = .handling call := hhandling
      rw [Function.update_self] at hupdate
      rw [hupdate] at hphase
      exact hphase trivial
    · rintro ⟨call, hhandling, -⟩
      rw [hhandling] at hout
      exact hout trivial
  · have hsame : (s.setThread t phase).threads t' = s.threads t' := Function.update_of_ne heq _ _
    rw [hsame]
    rfl

/-- nor on who walks for ever. -/
theorem walksForEver_setThread_iff (t' : ThreadId) :
    (s.setThread t phase).WalksForEver t' ↔ s.WalksForEver t' := by
  by_cases heq : t' = t
  · subst heq
    apply iff_of_false
    · rintro ⟨sys, pid, hdescribing, -⟩
      have hupdate : Function.update s.threads t' phase t' = .describing sys pid := hdescribing
      rw [Function.update_self] at hupdate
      rw [hupdate] at hphase
      exact hphase trivial
    · rintro ⟨sys, pid, hdescribing, -⟩
      rw [hdescribing] at hout
      exact hout trivial
  · have hsame : (s.setThread t phase).threads t' = s.threads t' := Function.update_of_ne heq _ _
    rw [Serving.WalksForEver, hsame]
    rfl

theorem stuck_setThread_iff : (s.setThread t phase).Stuck ↔ s.Stuck := by
  have hasks := asks_setThread_iff hout hphase
  have habout := aboutToAsk_setThread_iff hout hphase
  have hlost (t' : ThreadId) : (s.setThread t phase).Lost t' ↔ s.Lost t' :=
    and_congr_left fun _ => hasks t'
  have hblocked : (s.setThread t phase).MainBlocked ↔ s.MainBlocked := by
    constructor
    · rintro ⟨hwaits, hheld⟩
      simp only [hasks, habout] at hheld
      exact ⟨hwaits, hheld⟩
    · rintro ⟨hwaits, hheld⟩
      refine ⟨hwaits, ?_⟩
      simp only [hasks, habout]
      exact hheld
  exact or_congr (exists_congr hlost)
    (or_congr (exists_congr (walksForEver_setThread_iff hout hphase)) hblocked)

end Outside

/-- The dialog that is to be destroyed has no part in it. -/
theorem stuck_of_closing {s : Serving} {closing : Option ThreadId}
    (h : ({ s with closing } : Serving).Stuck) : s.Stuck := by
  rcases h with ⟨t, hasks, hlost⟩ | ⟨t, hwalks⟩ | hblocked
  · exact Or.inl ⟨t, hasks, hlost⟩
  · exact Or.inr (Or.inl ⟨t, hwalks⟩)
  · exact Or.inr (Or.inr ⟨hblocked.waits, hblocked.held⟩)

/-- A step after which the main thread does not wait, and which leaves the threads and the mutex
alone, makes a process stuck only by losing a confirmation. -/
theorem not_stuck_of_same {s s' : Serving} (hnot : ¬ s.Stuck) (hthreads : s'.threads = s.threads)
    (hholder : s'.holder = s.holder)
    (hconfirmations : ∀ t, t ∈ s'.confirmations ↔ t ∈ s.confirmations)
    (hmain : s'.main ≠ .lockingReload) : ¬ s'.Stuck := by
  rintro (⟨t, ⟨hheld, call, hasking⟩, hlost⟩ | ⟨t, sys, pid, hphase, hwalks⟩ | hblocked)
  · apply hnot
    refine Or.inl ⟨t, ⟨hholder ▸ hheld, call, hthreads ▸ hasking⟩, ?_⟩
    rwa [← hconfirmations t]
  · exact hnot (Or.inr (Or.inl ⟨t, sys, pid, hthreads ▸ hphase, hwalks⟩))
  · exact hmain hblocked.waits

/-- A lost confirmation stays lost. -/
theorem lost_of_mainDoes {crates : Crates} {s s' : Serving} {t : ThreadId} {act : MainAct}
    (h : s.OneDialog) (hlost : s.Lost t) (hdoes : MainDoes crates s act s') : s'.Lost t := by
  obtain ⟨hasks, hnot⟩ := hlost
  have hnone : s.confirmations = [] := by
    rw [List.eq_nil_iff_forall_not_mem]
    intro t' ht'
    exact hnot ((h.asks t' ht').eq hasks ▸ ht')
  obtain ⟨hposted, hdialogs⟩ := List.append_eq_nil_iff.1 hnone
  have hbusy : s.holder ≠ none := by
    rw [hasks.1]
    simp
  have hother (hmain : s.main.UnderMutex) : False :=
    not_asks_of_main (h.exclusive.main hmain) t hasks
  cases hdoes with
  | showConfirmation hposted' hmain =>
      rw [hposted] at hposted'
      cases hposted'
  | dropConfirmation hpumps hloop =>
      refine ⟨hasks, ?_⟩
      show t ∉ s.posted.tail ++ s.dialogs
      rw [hposted, hdialogs]
      simp
  | click hpumps hmem =>
      rw [hdialogs] at hmem
      cases hmem
  | menu quitPosted hact hphase => exact ⟨hasks, hnot⟩
  | chooseReload hphase => exact ⟨hasks, hnot⟩
  | lockReload hmain hfree hp => exact absurd hfree hbusy
  | panic hmain hfree hp => exact absurd hfree hbusy
  | reloaded hmain hreload => exact (hother (Or.inl hmain)).elim
  | reloadFails hmain hreload => exact (hother (Or.inl hmain)).elim
  | closeErrorBox hmain => exact (hother (Or.inr (Or.inl hmain))).elim
  | quit hmain hempty => exact ⟨hasks, hnot⟩
  | destroyWindow hclosing => exact ⟨hasks, hnot⟩

/-- The main thread does not change who describes a client. -/
theorem walksForEver_of_mainDoes {crates : Crates} {s s' : Serving} {t : ThreadId} {act : MainAct}
    (hwalks : s.WalksForEver t) (hdoes : MainDoes crates s act s') : s'.WalksForEver t := by
  cases hdoes with
  | @click t' answer hpumps hmem hclosing =>
      obtain ⟨sys, pid, hphase, hends⟩ := hwalks
      refine ⟨sys, pid, ?_, hends⟩
      show Function.update s.threads t' ((s.threads t').answered answer) t = .describing sys pid
      by_cases heq : t = t'
      · subst heq
        rw [Function.update_self, hphase]
        rfl
      · rw [Function.update_of_ne heq, hphase]
  | _ => exact hwalks

/-- A main thread that is blocked stays so. -/
theorem mainBlocked_of_mainDoes {crates : Crates} {s s' : Serving} {act : MainAct}
    (h : s.Exclusive) (hblocked : s.MainBlocked) (hdoes : MainDoes crates s act s') :
    s'.MainBlocked := by
  have hwaits := hblocked.waits
  have hbusy : s.holder ≠ none := fun hfree =>
    not_stuck_of_free h hfree (Or.inr (Or.inr hblocked))
  have hpumps : ¬ s.main.Pumps := by simp [hwaits, MainPhase.Pumps]
  cases hdoes with
  | showConfirmation hposted hmain => simp [hwaits] at hmain
  | dropConfirmation hpumping hloop => exact absurd hpumping hpumps
  | click hpumping hmem => exact absurd hpumping hpumps
  | menu quitPosted hact hphase =>
      rw [hwaits] at hphase
      simp [MainPhase.withMenu, MainPhase.withoutMenu] at hphase
  | chooseReload hphase =>
      rw [hwaits] at hphase
      simp [MainPhase.withoutMenu] at hphase
  | lockReload hmain hfree hp => exact absurd hfree hbusy
  | panic hmain hfree hp => exact absurd hfree hbusy
  | reloaded hmain hreload => simp [hwaits] at hmain
  | reloadFails hmain hreload => simp [hwaits] at hmain
  | closeErrorBox hmain => simp [hwaits] at hmain
  | quit hmain hempty => simp [hwaits] at hmain
  | destroyWindow hclosing => exact ⟨hwaits, hblocked.held⟩

/-- What a thread does leaves a stuck process stuck: it stays outside the mutex, or it goes on to
ask. -/
theorem stuck_of_threadDoes {crates : Crates} {s s' : Serving} {t : ThreadId} {act : ThreadAct}
    (h : s.Exclusive) (hstuck : s.Stuck) (hdoes : ThreadDoes crates s t act s') : s'.Stuck := by
  have hbusy (hfree : s.holder = none) : False := not_stuck_of_free h hfree hstuck
  have hout {phase phase' : ThreadPhase} (hphase : s.threads t = phase) (hnot : ¬ phase.Holds)
      (hnot' : ¬ phase'.Holds) : (s.setThread t phase').Stuck :=
    (stuck_setThread_iff (by rwa [hphase]) hnot').2 hstuck
  -- the thread holds the mutex, so a stuck process waits for it to ask
  have hself {phase : ThreadPhase} (hphase : s.threads t = phase) (hholds : phase.Holds)
      (hasking : ∀ call, phase ≠ .asking call none)
      (hends : ∀ sys pid, phase = .describing sys pid → WalkEnds sys.toWindows pid) :
      s.main = .lockingReload ∧ s.aboutToAsk t = true := by
    have hholder := h.thread t (by rwa [hphase])
    have hnot := not_asks_of_holder hholder fun call heq => hasking call (hphase.symm.trans heq)
    rcases hstuck with ⟨t', hasks, -⟩ | ⟨t', hwalks⟩ | ⟨hwaits, hheld | ⟨t', hasks | habout⟩⟩
    · exact absurd hasks (hnot t')
    · have hholder' := hwalks.holder h
      rw [hholder, Option.some.injEq, Owner.thread.injEq] at hholder'
      subst hholder'
      obtain ⟨sys, pid, hdescribing, hnever⟩ := hwalks
      exact absurd (hends sys pid (hphase.symm.trans hdescribing)) hnever
    · rw [hholder] at hheld
      cases hheld
    · exact absurd hasks (hnot t')
    · obtain ⟨call, hhandling, -⟩ := aboutToAsk_iff.1 habout
      have hholder' := h.thread t' (by rw [hhandling]; exact trivial)
      rw [hholder, Option.some.injEq, Owner.thread.injEq] at hholder'
      exact ⟨hwaits, hholder' ▸ habout⟩
  have hnotAsking {sys : Desktop} {pid : Pid} (hphase : s.threads t = .describing sys pid) :
      ¬ s.aboutToAsk t = true := by
    rw [Serving.aboutToAsk, hphase]
    simp
  cases hdoes with
  | describe hphase => exact hout hphase not_false not_false
  | receive hphase => exact hout hphase not_false not_false
  | die hwaits hfree hp => exact (hbusy hfree).elim
  | lockDescribe hphase hfree hp => exact (hbusy hfree).elim
  | lock hphase hfree hp => exact (hbusy hfree).elim
  | @finishDescribe sys pid hphase hends =>
      refine absurd (hself hphase trivial (by simp) ?_).2 (hnotAsking hphase)
      intro sys' pid' heq
      cases heq
      exact hends
  | @panicDescribe sys pid hphase hpanic =>
      refine absurd (hself hphase trivial (by simp) ?_).2 (hnotAsking hphase)
      intro sys' pid' heq
      cases heq
      by_contra hnot
      rw [(describeClient_eq_none_iff sys).2 hnot] at hpanic
      cases hpanic
  | @ask call hphase hask =>
      obtain ⟨hwaits, -⟩ := hself hphase trivial (by simp) (by simp)
      have hholder := h.thread t (by rw [hphase]; exact trivial)
      have hasks : ({ s.setThread t (.asking call none) with posted := s.posted ++ [t] } :
          Serving).Asks t := ⟨hholder, call, Function.update_self t _ _⟩
      exact Or.inr (Or.inr ⟨hwaits, Or.inr ⟨t, Or.inl hasks⟩⟩)
  | @handle call hphase hask =>
      obtain ⟨-, habout⟩ := hself hphase trivial (by simp) (by simp)
      obtain ⟨call', hhandling, hask'⟩ := aboutToAsk_iff.1 habout
      rw [hphase, ThreadPhase.handling.injEq] at hhandling
      rw [← hhandling, hask] at hask'
      cases hask'
  | @receiveAnswer call answer hphase =>
      obtain ⟨-, habout⟩ := hself hphase trivial (by simp) (by simp)
      obtain ⟨call', hhandling, -⟩ := aboutToAsk_iff.1 habout
      rw [hphase] at hhandling
      cases hhandling

theorem stuck_step {crates : Crates} {role : ThreadId → ThreadRole} {s s' : Serving}
    {act : DialogAct} (h : s.OneDialog) (hstuck : s.Stuck)
    (hstep : (dialogMachine crates role).step s act = some s') : s'.Stuck := by
  obtain ⟨-, hdoes⟩ := does_of_step hstep
  cases act with
  | thread t act => exact stuck_of_threadDoes h.exclusive hstuck hdoes
  | main act =>
      rcases hstuck with ⟨t, hlost⟩ | ⟨t, hwalks⟩ | hblocked
      · exact Or.inl ⟨t, lost_of_mainDoes h hlost hdoes⟩
      · exact Or.inr (Or.inl ⟨t, walksForEver_of_mainDoes hwalks hdoes⟩)
      · exact Or.inr (Or.inr (mainBlocked_of_mainDoes h.exclusive hblocked hdoes))

/-! ## The way out -/

section Released

variable {crates : Crates} {role : ThreadId → ThreadRole} {s : Serving}

theorem step_main (h : s.main ≠ .exited) (hclosing : s.closing = none) (act : MainAct) :
    (dialogMachine crates role).step s (.main act) = s.messageStep crates act := by
  have hmain : s.mainStep crates act = s.messageStep crates act := by
    unfold Serving.mainStep
    rw [hclosing]
  rw [← hmain]
  exact if_neg h

theorem step_thread (h : s.main ≠ .exited) (t : ThreadId) (act : ThreadAct) :
    (dialogMachine crates role).step s (.thread t act) = s.threadStep crates role t act :=
  if_neg h

/-- The mutex is released in some continuation. -/
def CanRelease (crates : Crates) (role : ThreadId → ThreadRole) (s : Serving) : Prop :=
  (dialogMachine crates role).CanReach (fun t => t.holder = none) s

theorem canRelease_of_finish {t : ThreadId} {call : Call} {w : World} {act : ThreadAct}
    (hmain : s.main ≠ .exited)
    (hstep : s.threadStep crates role t act = some (s.finish crates t call w)) :
    CanRelease crates role s := by
  obtain ⟨phase, w', poisoned, -, heq⟩ := finish_eq crates s t call w
  refine Machine.canReach_of_step ((step_thread hmain t act).trans hstep)
    (Machine.canReach_of_self ?_)
  rw [heq]

theorem canRelease_of_answered {t : ThreadId} {call : Call} {answer : Bool}
    (hmain : s.main ≠ .exited) (hphase : s.threads t = .asking call (some answer)) :
    CanRelease crates role s := by
  have hstep : s.threadStep crates role t .receiveAnswer = some (s.finish crates t call
      { s.world with confirms := Stream'.cons answer s.world.confirms }) := by
    unfold Serving.threadStep
    rw [hphase]
  exact canRelease_of_finish hmain hstep

/-- The main thread can destroy a dialog first. -/
theorem canRelease_of_destroyed (hmain : s.main ≠ .exited)
    (h : CanRelease crates role { s with closing := none }) : CanRelease crates role s := by
  cases hclosing : s.closing with
  | none =>
      have hsame : ({ s with closing := none } : Serving) = s := by rw [← hclosing]
      rwa [hsame] at h
  | some t =>
      have hstep : (dialogMachine crates role).step s (.main .destroyWindow) =
          some { s with closing := none } := by
        simp only [dialogMachine, if_neg hmain]
        unfold Serving.mainStep
        rw [hclosing]
      exact Machine.canReach_of_step hstep h

variable (hclosing : s.closing = none)

include hclosing

theorem canRelease_of_dialog {t : ThreadId} {call : Call} (hpumps : s.main.Pumps)
    (hmem : t ∈ s.dialogs) (hphase : s.threads t = .asking call none) :
    CanRelease crates role s := by
  have hmain : s.main ≠ .exited := by
    rcases hpumps with hmain | hmain | hmain | hmain <;> simp [hmain]
  have hclick : s.messageStep crates (.click t true) = some { s with
      dialogs := s.dialogs.erase t
      closing := some t
      threads := Function.update s.threads t ((s.threads t).answered true) } :=
    if_pos ⟨hpumps, hmem⟩
  have hanswered : Function.update s.threads t ((s.threads t).answered true) t =
      .asking call (some true) := by
    rw [Function.update_self, hphase]
    rfl
  have hreleased : CanRelease crates role { s with
      dialogs := s.dialogs.erase t
      closing := some t
      threads := Function.update s.threads t ((s.threads t).answered true) } := by
    apply canRelease_of_answered
    · exact hmain
    · exact hanswered
  exact Machine.canReach_of_step ((step_main hmain hclosing _).trans hclick) hreleased

theorem canRelease_of_posted {t : ThreadId} {call : Call} {posted : List ThreadId}
    (hmain : s.main = .loop) (hposted : s.posted = t :: posted)
    (hphase : s.threads t = .asking call none) : CanRelease crates role s := by
  have hshow : s.messageStep crates .showConfirmation =
      some { s with posted, dialogs := t :: s.dialogs } := by
    simp only [Serving.messageStep, hposted, hmain, if_true]
  refine Machine.canReach_of_step ((step_main (by simp [hmain]) hclosing _).trans hshow) ?_
  exact canRelease_of_dialog hclosing (Or.inl hmain) List.mem_cons_self hphase

/-- A confirmation that is not lost can be answered, over the menu or not. -/
theorem canRelease_of_asks {t : ThreadId} (hasks : s.Asks t) (hmem : t ∈ s.confirmations)
    (hone : s.confirmations.length ≤ 1) (hmain : s.main = .loop ∨ s.main = .menu) :
    CanRelease crates role s := by
  obtain ⟨-, call, hphase⟩ := hasks
  rcases List.mem_append.1 hmem with hposted | hdialog
  · have hone' : (s.posted ++ s.dialogs).length ≤ 1 := hone
    rw [List.length_append] at hone'
    have hpos := List.length_pos_of_mem hposted
    obtain ⟨t', ht'⟩ := List.length_eq_one_iff.1 (show s.posted.length = 1 by omega)
    rw [ht', List.mem_singleton] at hposted
    subst hposted
    rcases hmain with hmain | hmain
    · exact canRelease_of_posted hclosing hmain ht' hphase
    · have hdismiss : s.messageStep crates .dismissMenu = some { s with main := .loop } := by
        rw [Serving.messageStep, hmain]
        rfl
      refine Machine.canReach_of_step ((step_main (by simp [hmain]) hclosing _).trans hdismiss) ?_
      exact canRelease_of_posted hclosing rfl ht' hphase
  · refine canRelease_of_dialog hclosing ?_ hdialog hphase
    rcases hmain with hmain | hmain
    · exact Or.inl hmain
    · exact Or.inr (Or.inl hmain)

theorem canRelease_of_errorBox (hmain : s.main = .errorBox) : CanRelease crates role s := by
  have hclose : s.messageStep crates .closeErrorBox =
      some { s with main := .loop, holder := none } := if_pos hmain
  exact Machine.canReach_of_step ((step_main (by simp [hmain]) hclosing _).trans hclose)
    (Machine.canReach_of_self rfl)

/-- The main thread finishes its reload. -/
theorem canRelease_of_underMutex (hmain : s.main.UnderMutex) : CanRelease crates role s := by
  rcases hmain with hmain | hmain | hmain
  · have hmain' : s.main ≠ .exited := by simp [hmain]
    have hstep {s' : Serving} (hreload : s.messageStep crates (.reload .none) = some s') :
        (dialogMachine crates role).step s (.main (.reload .none)) = some s' :=
      (step_main hmain' hclosing _).trans hreload
    have hfailed (hreload : s.messageStep crates (.reload .none) =
        some { s with main := .errorBox }) : CanRelease crates role s :=
      Machine.canReach_of_step (hstep hreload) (canRelease_of_errorBox hclosing rfl)
    rcases hconfig : Config.reload crates .none s.world.file s.world.config with ⟨outcome, config⟩
    cases outcome with
    | ok u =>
        have hreload : s.messageStep crates (.reload .none) =
            some { s with world := { s.world with config }, main := .loop, holder := none } := by
          rw [Serving.messageStep, if_pos hmain, hconfig]
        exact Machine.canReach_of_step (hstep hreload) (Machine.canReach_of_self rfl)
    | err e => exact hfailed (by rw [Serving.messageStep, if_pos hmain, hconfig])
    | panic => exact hfailed (by rw [Serving.messageStep, if_pos hmain, hconfig])
  · exact canRelease_of_errorBox hclosing hmain
  · have hdismiss : s.messageStep crates .dismissMenu = some { s with main := .errorBox } := by
      rw [Serving.messageStep, hmain]
      rfl
    exact Machine.canReach_of_step ((step_main (by simp [hmain]) hclosing _).trans hdismiss)
      (canRelease_of_errorBox hclosing rfl)

/-- A thread that is at work under the mutex can finish, unless it needs a main thread that waits or
a message that is lost. -/
theorem canRelease_of_thread {t : ThreadId} (h : s.OneDialog) (hmain : s.main ≠ .exited)
    (hholder : s.holder = some (.thread t)) (hnot : ¬ s.Stuck) : CanRelease crates role s := by
  -- the main thread does not hold the mutex, so it is in its loop or in the menu
  have hunder (hbusy : s.main.UnderMutex) : False := by
    have hheld := h.exclusive.main hbusy
    rw [hholder] at hheld
    cases hheld
  have hpumps (hwaits : s.main ≠ .lockingReload) : s.main = .loop ∨ s.main = .menu := by
    cases hm : s.main with
    | loop => exact Or.inl rfl
    | menu => exact Or.inr rfl
    | lockingReload => exact absurd hm hwaits
    | reloading => exact (hunder (Or.inl hm)).elim
    | errorBox => exact (hunder (Or.inr (Or.inl hm))).elim
    | errorMenu => exact (hunder (Or.inr (Or.inr hm))).elim
    | exited => exact absurd hm hmain
  have hholds := h.heldByThread t hholder
  cases hphase : s.threads t with
  | running => rw [hphase] at hholds; exact hholds.elim
  | lockingDescribe sys pid => rw [hphase] at hholds; exact hholds.elim
  | locking call => rw [hphase] at hholds; exact hholds.elim
  | dead => rw [hphase] at hholds; exact hholds.elim
  | describing sys pid =>
      have hstep : s.threadStep crates role t .finishDescribe =
          s.described t (sys.describeClient pid) := by
        unfold Serving.threadStep
        rw [hphase]
      have hreleases {s' : Serving} (hdescribed : s.described t (sys.describeClient pid) = some s')
          (hfree : s'.holder = none) : CanRelease crates role s :=
        Machine.canReach_of_step ((step_thread hmain t _).trans (hstep.trans hdescribed))
          (Machine.canReach_of_self hfree)
      cases hresult : sys.describeClient pid with
      | none =>
          have hwalks : s.WalksForEver t :=
            ⟨sys, pid, hphase, (describeClient_eq_none_iff sys).1 hresult⟩
          exact absurd (Or.inr (Or.inl ⟨t, hwalks⟩)) hnot
      | some result =>
          rw [hresult] at hreleases
          cases result with
          | ok info => exact hreleases rfl rfl
          | err e => exact hreleases rfl rfl
          | panic => exact hreleases rfl rfl
  | handling call =>
      cases hask : asksConfirmation s.world call.buf with
      | false =>
          have hstep : s.threadStep crates role t .handle =
              some (s.finish crates t call s.world) := by
            unfold Serving.threadStep
            rw [hphase]
            simp only [hask, Bool.false_eq_true, if_false]
          exact canRelease_of_finish hmain hstep
      | true =>
          have hwaits : s.main ≠ .lockingReload := fun hwaits =>
            hnot (Or.inr (Or.inr ⟨hwaits, Or.inr ⟨t, Or.inr
              (aboutToAsk_iff.2 ⟨call, hphase, hask⟩)⟩⟩))
          have hnone := h.confirmations_eq_nil (not_asks_of_holder hholder (by simp [hphase]))
          obtain ⟨hposted, hdialogs⟩ := List.append_eq_nil_iff.1 hnone
          have hstep : s.threadStep crates role t .handle =
              some { s.setThread t (.asking call none) with posted := s.posted ++ [t] } := by
            unfold Serving.threadStep
            rw [hphase]
            simp only [hask, if_true]
          refine Machine.canReach_of_step ((step_thread hmain t _).trans hstep) ?_
          refine canRelease_of_asks (t := t) hclosing
            ⟨hholder, call, Function.update_self t _ _⟩ ?_ ?_
            (hpumps hwaits)
          · exact List.mem_append_left _ (List.mem_append_right _ List.mem_cons_self)
          · show ((s.posted ++ [t]) ++ s.dialogs).length ≤ 1
            rw [hposted, hdialogs]
            exact Nat.le_refl 1
  | asking call answer =>
      cases answer with
      | some answer => exact canRelease_of_answered hmain hphase
      | none =>
          have hasks : s.Asks t := ⟨hholder, call, hphase⟩
          have hwaits : s.main ≠ .lockingReload := fun hwaits =>
            hnot (Or.inr (Or.inr ⟨hwaits, Or.inr ⟨t, Or.inl hasks⟩⟩))
          have hmem : t ∈ s.confirmations := by
            by_contra hlost
            exact hnot (Or.inl ⟨t, hasks, hlost⟩)
          exact canRelease_of_asks hclosing hasks hmem h.one (hpumps hwaits)

end Released

/-- **When the mutex is released.** From a state of a running process, some continuation releases
the mutex exactly when the process is not stuck: no confirmation is lost, no thread describes a
client from which the walk to the ancestors has no end, and the main thread does not wait for a
mutex that it holds itself or that a thread holds which needs a dialog. -/
theorem mutex_released_iff (crates : Crates) (role : ThreadId → ThreadRole) (w : World)
    (acts : List DialogAct) (s : Serving)
    (hrun : (dialogMachine crates role).run (Serving.start w) acts = some s)
    (hmain : s.main ≠ .exited) :
    (∃ acts' s', (dialogMachine crates role).run s acts' = some s' ∧ s'.holder = none) ↔
      ¬ s.Stuck := by
  have h := oneDialog_of_run hrun
  constructor
  · intro hreach hstuck
    refine Machine.not_canReach_of_invariant (M := dialogMachine crates role)
      (I := fun s => s.OneDialog ∧ s.Stuck) (P := fun s => s.holder = none) ?_ ?_ ⟨h, hstuck⟩ hreach
    · exact fun s a s' hI hs => ⟨oneDialog_step hI.1 hs, stuck_step hI.1 hI.2 hs⟩
    · exact fun s hI hfree => not_stuck_of_free hI.1.exclusive hfree hI.2
  · intro hnot
    show CanRelease crates role s
    have hdestroyed : ({ s with closing := none } : Serving).OneDialog :=
      ⟨⟨h.exclusive.thread, h.exclusive.main⟩, h.asks, h.one, fun hne => absurd rfl hne,
        h.heldByThread, h.heldByMain⟩
    cases hholder : s.holder with
    | none => exact Machine.canReach_of_self hholder
    | some owner =>
    cases owner with
    | main =>
        rcases h.heldByMain hholder with hbusy | hwaits
        · exact canRelease_of_destroyed hmain (canRelease_of_underMutex rfl hbusy)
        · exact absurd (Or.inr (Or.inr ⟨hwaits, Or.inl hholder⟩)) hnot
    | thread t =>
        apply canRelease_of_destroyed hmain
        exact canRelease_of_thread rfl hdestroyed hmain hholder fun hstuck =>
          hnot (stuck_of_closing hstuck)

/-- The dialog of the asking run can be answered, so its process is not stuck. -/
theorem mutex_released_iff_asking :
    ∃ s, (dialogMachine Reference.crates fun _ => .connection).run
        (Serving.start (emptyWorld true .none)) askingRun = some s ∧ ¬ s.Stuck := by
  obtain ⟨s, hs, -, hmain⟩ := exists_run_askingRun
  have hreleased : ((dialogMachine Reference.crates fun _ => .connection).run
      (Serving.start (emptyWorld true .none))
        (askingRun ++ [.main (.click 0 true), .thread 0 .receiveAnswer])).any
        (fun t => decide (t.holder = none)) = true := by decide +kernel
  rw [Machine.run_append, hs] at hreleased
  obtain ⟨t, ht, hfree⟩ := (Option.any_eq_true _ _).1 hreleased
  exact ⟨s, hs, (mutex_released_iff Reference.crates (fun _ => .connection) (emptyWorld true .none)
    askingRun s hs (by simp [hmain])).1 ⟨_, t, ht, of_decide_eq_true hfree⟩⟩

/-! ## How a process gets stuck -/

/-- The thread is at `lock()` with a request for a signature with a stored key. -/
def Serving.wantsToAsk (s : Serving) (t : ThreadId) : Bool :=
  match s.threads t with
  | .locking call => asksConfirmation s.world call.buf
  | _ => false

/-- The thread is at `lock()` to describe a client from which the walk has no end. -/
def Serving.WantsToWalk (s : Serving) (t : ThreadId) : Prop :=
  ∃ sys pid, s.threads t = .lockingDescribe sys pid ∧ ¬ WalkEnds sys.toWindows pid

/-- No posted confirmation is dropped in a modal loop, the user does not choose to reload over an
error box or while a dialog is needed, and no thread takes an unpoisoned mutex to describe a client
from which the walk has no end, nor, while the main thread waits for it, for a request that needs a
dialog. -/
def KeepsMoving (s : Serving) : DialogAct → Prop
  | .main .dropConfirmation => s.posted = []
  | .main .chooseReload => s.main ≠ .errorMenu ∧ ∀ t, ¬ s.Asks t ∧ s.aboutToAsk t = false
  | .thread t .lock => s.poisoned = false →
      ¬ s.WantsToWalk t ∧ (s.main = .lockingReload → s.wantsToAsk t = false)
  | _ => True

/-- A confirmation that is dropped was the only one, and its thread still waits. -/
theorem not_stuck_of_drop_iff {s : Serving} (h : s.OneDialog) (hnot : ¬ s.Stuck)
    (hwaits : s.main ≠ .lockingReload) :
    ¬ ({ s with posted := s.posted.tail } : Serving).Stuck ↔ s.posted = [] := by
  rcases hposted : s.posted with _ | ⟨t, posted⟩
  · refine iff_of_true (not_stuck_of_same hnot rfl rfl ?_ hwaits) rfl
    intro t'
    show t' ∈ [].tail ++ s.dialogs ↔ t' ∈ s.posted ++ s.dialogs
    rw [hposted]
    exact Iff.rfl
  · have hmem : t ∈ s.confirmations := by
      rw [Serving.confirmations, hposted]
      exact List.mem_append_left _ List.mem_cons_self
    have hone : (s.posted ++ s.dialogs).length ≤ 1 := h.one
    rw [hposted, List.length_append, List.length_cons] at hone
    have hrest : posted = [] := List.eq_nil_of_length_eq_zero (by omega)
    have hdialogs : s.dialogs = [] := List.eq_nil_of_length_eq_zero (by omega)
    refine iff_of_false (not_not_intro (Or.inl ⟨t, h.asks t hmem, ?_⟩)) (List.cons_ne_nil _ _)
    show t ∉ posted ++ s.dialogs
    rw [hrest, hdialogs]
    exact List.not_mem_nil

/-- The main thread goes to wait for the mutex: it may not hold it, and no thread that holds it may
need a dialog. -/
theorem not_stuck_of_chooseReload_iff {s : Serving} {phase : MainPhase} (h : s.OneDialog)
    (hnot : ¬ s.Stuck) (hphase : s.main.withoutMenu = some phase) :
    ¬ ({ s with main := .lockingReload } : Serving).Stuck ↔
      s.main ≠ .errorMenu ∧ ∀ t, ¬ s.Asks t ∧ s.aboutToAsk t = false := by
  have hheld : s.holder = some .main ↔ s.main = .errorMenu := by
    constructor
    · intro hheld
      have hbusy := h.heldByMain hheld
      cases hm : s.main <;> rw [hm] at hphase hbusy <;>
        simp_all [MainPhase.withoutMenu, MainPhase.UnderMutex]
    · exact fun hmain => h.exclusive.main (Or.inr (Or.inr hmain))
  constructor
  · intro hnot'
    refine ⟨fun hmain => hnot' (Or.inr (Or.inr ⟨rfl, Or.inl (hheld.2 hmain)⟩)),
      fun t => ⟨?_, ?_⟩⟩
    · exact fun hasks => hnot' (Or.inr (Or.inr ⟨rfl, Or.inr ⟨t, Or.inl hasks⟩⟩))
    · rw [Bool.eq_false_iff]
      exact fun habout => hnot' (Or.inr (Or.inr ⟨rfl, Or.inr ⟨t, Or.inr habout⟩⟩))
  · rintro ⟨hmain, hquiet⟩ (⟨t, hasks, hlost⟩ | ⟨t, hwalks⟩ | ⟨-, hheld' | ⟨t, hasks | habout⟩⟩)
    · exact (hquiet t).1 hasks
    · exact hnot (Or.inr (Or.inl ⟨t, hwalks⟩))
    · exact hmain (hheld.1 hheld')
    · exact (hquiet t).1 hasks
    · have hfalse := (hquiet t).2
      have habout' : s.aboutToAsk t = true := habout
      rw [hfalse] at habout'
      cases habout'

theorem not_stuck_of_mainDoes_iff {crates : Crates} {s s' : Serving} {act : MainAct}
    (h : s.OneDialog) (hexclusive : s'.Exclusive) (hnot : ¬ s.Stuck)
    (hdoes : MainDoes crates s act s') : ¬ s'.Stuck ↔ KeepsMoving s (.main act) := by
  have hpumping (hpumps : s.main.Pumps) : s.main ≠ .lockingReload := by
    rcases hpumps with hmain | hmain | hmain | hmain <;> simp [hmain]
  have hfree (hact : KeepsMoving s (.main act)) (hholder : s'.holder = none) :
      ¬ s'.Stuck ↔ KeepsMoving s (.main act) :=
    iff_of_true (not_stuck_of_free hexclusive hholder) hact
  cases hdoes with
  | @showConfirmation t posted hposted hmain =>
      refine iff_of_true (not_stuck_of_same hnot rfl rfl ?_ (by simp [hmain])) trivial
      intro t'
      show t' ∈ posted ++ t :: s.dialogs ↔ t' ∈ s.posted ++ s.dialogs
      rw [hposted]
      simp [or_left_comm]
  | dropConfirmation hpumps hloop =>
      exact not_stuck_of_drop_iff h hnot (hpumping hpumps)
  | @click t answer hpumps hmem hclosing =>
      refine iff_of_true ?_ trivial
      obtain ⟨-, -, hholder, call, hasking⟩ := click_cases h hmem
      have hself : Function.update s.threads t ((s.threads t).answered answer) t =
          .asking call (some answer) := by
        rw [Function.update_self, hasking]
        rfl
      apply not_stuck_of_nobody
      · exact not_asks_of_holder hholder fun call' heq => by
          have hanswered := hself.symm.trans heq
          simp at hanswered
      · exact not_walks_of_holder hexclusive hholder fun sys pid heq => by
          have hanswered := hself.symm.trans heq
          simp at hanswered
      · exact hpumping hpumps
  | @menu _ phase quitPosted hact hphase =>
      obtain ⟨hmain, hmain', -⟩ := menu_cases hphase
      refine iff_of_true (not_stuck_of_same hnot rfl rfl (fun _ => Iff.rfl) hmain') ?_
      · cases act <;> first | exact trivial | exact absurd hact not_false
  | @chooseReload phase hphase =>
      exact not_stuck_of_chooseReload_iff h hnot hphase
  | lockReload hmain hholder hp =>
      refine iff_of_true ?_ trivial
      exact not_stuck_of_nobody (not_asks_of_main rfl) (not_walks_of_main hexclusive rfl) (by simp)
  | panic hmain hholder hp => exact hfree trivial hholder
  | reloaded hmain hreload => exact hfree trivial rfl
  | reloadFails hmain hreload =>
      have hholder := h.exclusive.main (Or.inl hmain)
      refine iff_of_true ?_ trivial
      exact not_stuck_of_nobody (not_asks_of_main hholder) (not_walks_of_main hexclusive hholder)
        (by simp)
  | closeErrorBox hmain => exact hfree trivial rfl
  | quit hmain hempty =>
      exact iff_of_true (not_stuck_of_same hnot rfl rfl (fun _ => Iff.rfl) (by simp)) trivial
  | destroyWindow hclosing =>
      exact iff_of_true (fun hstuck => hnot (stuck_of_closing hstuck)) trivial

theorem not_stuck_of_threadDoes_iff {crates : Crates} {s s' : Serving} {t : ThreadId}
    {act : ThreadAct} (h : s.OneDialog) (hexclusive : s'.Exclusive) (hnot : ¬ s.Stuck)
    (hdoes : ThreadDoes crates s t act s') : ¬ s'.Stuck ↔ KeepsMoving s (.thread t act) := by
  have hout {phase phase' : ThreadPhase} (hphase : s.threads t = phase) (hout : ¬ phase.Holds)
      (hout' : ¬ phase'.Holds) : ¬ (s.setThread t phase').Stuck := by
    rwa [stuck_setThread_iff (by rwa [hphase]) hout']
  -- with the mutex taken by `t`, a process is stuck only if `t` walks or is about to ask
  have hlock {phase : ThreadPhase} (hphase : ∀ call, phase ≠ .asking call none)
      (hexclusive' :
        ({ s.setThread t phase with holder := some (.thread t) } : Serving).Exclusive) :
      ({ s.setThread t phase with holder := some (.thread t) } : Serving).Stuck ↔
        (∃ sys pid, phase = .describing sys pid ∧ ¬ WalkEnds sys.toWindows pid) ∨
          s.main = .lockingReload ∧ ∃ call, phase = .handling call ∧
            asksConfirmation s.world call.buf = true := by
    have hself : Function.update s.threads t phase t = phase := Function.update_self t _ _
    have hnobody := not_asks_of_holder
      (s := { s.setThread t phase with holder := some (.thread t) }) rfl
      (fun call heq => hphase call (hself.symm.trans heq))
    constructor
    · rintro (⟨t', hasks, -⟩ | ⟨t', hwalks⟩ | ⟨hwaits, hheld | ⟨t', hasks | habout⟩⟩)
      · exact absurd hasks (hnobody t')
      · have hholder' := hwalks.holder hexclusive'
        simp only [Option.some.injEq, Owner.thread.injEq] at hholder'
        subst hholder'
        obtain ⟨sys, pid, hdescribing, hnever⟩ := hwalks
        exact Or.inl ⟨sys, pid, hself.symm.trans hdescribing, hnever⟩
      · cases hheld
      · exact absurd hasks (hnobody t')
      · obtain ⟨call, hhandling, hask⟩ := aboutToAsk_iff.1 habout
        have hholder' := hexclusive'.thread t' (by rw [hhandling]; exact trivial)
        simp only [Option.some.injEq, Owner.thread.injEq] at hholder'
        subst hholder'
        exact Or.inr ⟨hwaits, call, hself.symm.trans hhandling, hask⟩
    · rintro (⟨sys, pid, rfl, hnever⟩ | ⟨hwaits, call, rfl, hask⟩)
      · exact Or.inr (Or.inl ⟨t, sys, pid, hself, hnever⟩)
      · refine Or.inr (Or.inr ⟨hwaits, Or.inr ⟨t, Or.inr ?_⟩⟩)
        exact aboutToAsk_iff.2 ⟨call, hself, hask⟩
  cases hdoes with
  | describe hphase => exact iff_of_true (hout hphase not_false not_false) trivial
  | receive hphase => exact iff_of_true (hout hphase not_false not_false) trivial
  | die hwaits hfree hp =>
      refine iff_of_true ?_ fun hnotp => ?_
      · rcases hwaits with ⟨sys, pid, hphase⟩ | ⟨call, hphase⟩
        · exact hout hphase not_false not_false
        · exact hout hphase not_false not_false
      · rw [hp] at hnotp
        cases hnotp
  | @lockDescribe sys pid hphase hfree hp =>
      rw [hlock (by simp) hexclusive]
      have hwants : s.wantsToAsk t = false := by rw [Serving.wantsToAsk, hphase]
      have hwalk : s.WantsToWalk t ↔ ¬ WalkEnds sys.toWindows pid := by
        simp [Serving.WantsToWalk, hphase]
      show _ ↔ (s.poisoned = false → ¬ s.WantsToWalk t ∧
        (s.main = .lockingReload → s.wantsToAsk t = false))
      rw [hwants, hwalk, hp]
      simp
  | @lock call hphase hfree hp =>
      rw [hlock (by simp) hexclusive]
      have hwants : s.wantsToAsk t = asksConfirmation s.world call.buf := by
        rw [Serving.wantsToAsk, hphase]
      have hwalk : ¬ s.WantsToWalk t := by simp [Serving.WantsToWalk, hphase]
      show _ ↔ (s.poisoned = false → ¬ s.WantsToWalk t ∧
        (s.main = .lockingReload → s.wantsToAsk t = false))
      rw [hwants, hp]
      simp [hwalk]
  | finishDescribe hphase hends => exact iff_of_true (not_stuck_of_free hexclusive rfl) trivial
  | panicDescribe hphase hpanic => exact iff_of_true (not_stuck_of_free hexclusive rfl) trivial
  | @ask call hphase hask =>
      refine iff_of_true ?_ trivial
      have hholder := h.exclusive.thread t (by rw [hphase]; exact trivial)
      have hposted : t ∈ (s.posted ++ [t]) ++ s.dialogs :=
        List.mem_append_left _ (List.mem_append_right _ List.mem_cons_self)
      have hwaits : s.main ≠ .lockingReload := fun hwaits =>
        hnot (Or.inr (Or.inr
          ⟨hwaits, Or.inr ⟨t, Or.inr (aboutToAsk_iff.2 ⟨call, hphase, hask⟩)⟩⟩))
      have hself : Function.update s.threads t (.asking call none) t = .asking call none :=
        Function.update_self t _ _
      have hnowalk := not_walks_of_holder hexclusive hholder fun sys pid heq => by
        have hasking := hself.symm.trans heq
        cases hasking
      rintro (⟨t', hasks, hlost⟩ | ⟨t', hwalks⟩ | hblocked)
      · have heq := hholder.symm.trans hasks.1
        rw [Option.some.injEq, Owner.thread.injEq] at heq
        exact hlost (heq ▸ hposted)
      · exact hnowalk t' hwalks
      · exact hwaits hblocked.waits
  | @handle call hphase hask =>
      obtain ⟨phase, w', poisoned, -, heq⟩ := finish_eq crates s t call s.world
      refine iff_of_true (not_stuck_of_free hexclusive ?_) trivial
      rw [heq]
  | @receiveAnswer call answer hphase =>
      obtain ⟨phase, w', poisoned, -, heq⟩ := finish_eq crates s t call
        { s.world with confirms := Stream'.cons answer s.world.confirms }
      refine iff_of_true (not_stuck_of_free hexclusive ?_) trivial
      rw [heq]

/-- **Which runs get stuck.** No state of a run is stuck exactly when every step of it keeps the
process moving. -/
theorem never_stuck_iff (crates : Crates) (role : ThreadId → ThreadRole) (w : World)
    (acts : List DialogAct) :
    (dialogMachine crates role).AllStates (fun s => ¬ s.Stuck) (Serving.start w) acts ↔
      (dialogMachine crates role).AllSteps KeepsMoving (Serving.start w) acts := by
  refine Machine.allStates_iff_allSteps (J := Serving.OneDialog)
    (fun s act s' h _ _ hstep => oneDialog_step h hstep) (fun s act s' h hnot hstep => ?_) acts
    (oneDialog_start w) (not_stuck_of_free (exclusive_start w) rfl)
  have hexclusive := exclusive_step h.exclusive hstep
  obtain ⟨-, hdoes⟩ := does_of_step hstep
  cases act with
  | main act => exact not_stuck_of_mainDoes_iff h hexclusive hnot hdoes
  | thread t act => exact not_stuck_of_threadDoes_iff h hexclusive hnot hdoes

end SshKeys
