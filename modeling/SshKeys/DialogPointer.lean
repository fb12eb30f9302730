import SshKeys.Lib.Transition

/-!
# The pointer of the dialog

One confirmation in the memory of the process, after `platform/win/confirmation.rs`. It lies on the
stack of the thread in `ask_confirmation`, and the dialog has a pointer to it in its user data,
which `dlg_proc` loads and uses without a lock. `Finally` of `utils.rs` sets the pointer to null
before the confirmation is dropped.

`dialog_pointer_sound` is what this guarantees in every interleaving of the two threads, and
`never_dangling_iff` says in which of them no pointer that was loaded before is used after the drop.
-/

set_option autoImplicit false

namespace SshKeys

open Lib

/-! ## Two threads -/

/-- Where the thread in `ask_confirmation` is. -/
inductive AskPhase where
  /-- In `receiver.recv()`. -/
  | receiving
  /-- With the answer. `_set_null` is dropped next. -/
  | received (answer : Bool)
  /-- `confirmation` is dropped next. -/
  | unlinked (answer : Bool)
  | returned (answer : Bool)
  deriving DecidableEq

/-- The window of the dialog. -/
inductive DialogWindow where
  | absent
  /-- The user data of the window is the pointer, or null. -/
  | shown (linked : Bool)
  | destroyed
  deriving DecidableEq

/-- Where the main thread is with the messages of the dialog. `linked` is a pointer that it has
loaded, which is null if it is `false`. -/
inductive ProcPhase where
  | idle
  /-- Before the use of the pointer for the tooltip, with the answer of a click. -/
  | relaying (linked : Bool) (click : Option Bool)
  /-- In `WM_COMMAND`, before the pointer is loaded again. -/
  | command (answer : Bool)
  /-- Before `sender.send`. -/
  | sending (linked : Bool) (answer : Bool)
  /-- In `DestroyWindow`. -/
  | destroying
  /-- In `dlg_proc`, called by `DestroyWindow`, before the use of the pointer for the tooltip. -/
  | relayingNested (linked : Bool)
  deriving DecidableEq

/-- The thread in `ask_confirmation` and the main thread, with what they share. -/
structure Asking where
  ask : AskPhase
  /-- The answers in the channel. -/
  channel : List Bool
  window : DialogWindow
  proc : ProcPhase
  deriving DecidableEq

/-- `WM_SHOW_CONFIRMATION` is posted. -/
def Asking.start : Asking where
  ask := .receiving
  channel := []
  window := .absent
  proc := .idle

/-- A step of one of the two threads. -/
inductive AskAct where
  /-- `show_dialog` and `WM_INITDIALOG`. -/
  | show
  /-- A message for the dialog arrives: `dlg_proc` loads the pointer. -/
  | message (click : Option Bool)
  | relay
  | loadSender
  | send
  /-- `DestroyWindow` sends a message. -/
  | messageNested
  | relayNested
  | destroyed
  | receive
  /-- The drop of `_set_null`. -/
  | unlink
  /-- The drop of `confirmation`. -/
  | drop
  deriving DecidableEq

/-- What `SetWindowLongPtrA(dlg, DWLP_USER, 0)` does to the window. -/
def DialogWindow.unlink : DialogWindow → DialogWindow
  | .shown _ => .shown false
  | window => window

/-- The two threads, interleaved. The pointer is loaded and used in steps of their own. -/
def askMachine : Machine Asking AskAct where
  step s act :=
    match act, s.ask, s.channel, s.window, s.proc with
    | .show, _, _, .absent, .idle => some { s with window := .shown true }
    | .message click, _, _, .shown linked, .idle => some { s with proc := .relaying linked click }
    | .relay, _, _, _, .relaying _ (some answer) => some { s with proc := .command answer }
    | .relay, _, _, _, .relaying _ none => some { s with proc := .idle }
    | .loadSender, _, _, .shown linked, .command answer =>
        some { s with proc := .sending linked answer }
    | .send, _, channel, _, .sending _ answer =>
        some { s with channel := channel ++ [answer], proc := .destroying }
    | .messageNested, _, _, .shown linked, .destroying =>
        some { s with proc := .relayingNested linked }
    | .relayNested, _, _, _, .relayingNested _ => some { s with proc := .destroying }
    | .destroyed, _, _, _, .destroying => some { s with window := .destroyed, proc := .idle }
    | .receive, .receiving, answer :: channel, _, _ =>
        some { s with ask := .received answer, channel }
    | .unlink, .received answer, _, window, _ =>
        some { s with ask := .unlinked answer, window := window.unlink }
    | .drop, .unlinked answer, _, _, _ => some { s with ask := .returned answer }
    | _, _, _, _, _ => none

/-- The answers of the clicks that the dialog got. -/
def clicksOf (acts : List AskAct) : List Bool :=
  acts.filterMap fun act =>
    match act with
    | .message click => click
    | _ => none

/-! ## Stages -/

/-- How far an answer has come that was sent. -/
inductive Delivered (answer : Bool) : AskPhase → List Bool → Bool → Prop where
  | sent : Delivered answer .receiving [answer] true
  | received : Delivered answer (.received answer) [] true
  | unlinked : Delivered answer (.unlinked answer) [] false
  | returned : Delivered answer (.returned answer) [] false

/-- The clicks so far and the states that the two threads come to. -/
inductive Stage : List Bool → Asking → Prop where
  | posted : Stage [] ⟨.receiving, [], .absent, .idle⟩
  | idle : Stage [] ⟨.receiving, [], .shown true, .idle⟩
  | relaying (click : Option Bool) :
      Stage click.toList ⟨.receiving, [], .shown true, .relaying true click⟩
  | command (answer : Bool) : Stage [answer] ⟨.receiving, [], .shown true, .command answer⟩
  | sending (answer : Bool) : Stage [answer] ⟨.receiving, [], .shown true, .sending true answer⟩
  | destroying {answer linked : Bool} {ask : AskPhase} {channel : List Bool}
      (h : Delivered answer ask channel linked) :
      Stage [answer] ⟨ask, channel, .shown linked, .destroying⟩
  | relayingNested {answer linked : Bool} {ask : AskPhase} {channel : List Bool}
      (loaded : Bool) (h : Delivered answer ask channel linked) (hloaded : linked → loaded) :
      Stage [answer] ⟨ask, channel, .shown linked, .relayingNested loaded⟩
  | destroyed {answer linked : Bool} {ask : AskPhase} {channel : List Bool}
      (h : Delivered answer ask channel linked) :
      Stage [answer] ⟨ask, channel, .destroyed, .idle⟩

theorem stage_step {clicks : List Bool} {s s' : Asking} {act : AskAct} (h : Stage clicks s)
    (hstep : askMachine.step s act = some s') : Stage (clicks ++ clicksOf [act]) s' := by
  cases h with
  | posted =>
      cases act <;> cases hstep
      exact .idle
  | idle =>
      cases act <;> cases hstep
      exact .relaying _
  | relaying click =>
      cases act with
      | relay =>
          cases click with
          | none =>
              cases hstep
              exact .idle
          | some answer =>
              cases hstep
              exact .command answer
      | _ => cases hstep
  | command answer =>
      cases act <;> cases hstep
      exact .sending answer
  | sending answer =>
      cases act <;> cases hstep
      exact .destroying .sent
  | destroying h =>
      cases h with
      | sent =>
          cases act <;> cases hstep
          · exact .relayingNested true .sent id
          · exact .destroyed .sent
          · exact .destroying .received
      | received =>
          cases act <;> cases hstep
          · exact .relayingNested true .received id
          · exact .destroyed .received
          · exact .destroying .unlinked
      | unlinked =>
          cases act <;> cases hstep
          · exact .relayingNested false .unlinked id
          · exact .destroyed .unlinked
          · exact .destroying .returned
      | returned =>
          cases act <;> cases hstep
          · exact .relayingNested false .returned id
          · exact .destroyed .returned
  -- the message was there first, and the pointer that it loaded stays what it was
  | relayingNested loaded h hloaded =>
      cases h with
      | sent =>
          cases act <;> cases hstep
          · exact .destroying .sent
          · exact .relayingNested loaded .received hloaded
      | received =>
          cases act <;> cases hstep
          · exact .destroying .received
          · exact .relayingNested loaded .unlinked (by simp)
      | unlinked =>
          cases act <;> cases hstep
          · exact .destroying .unlinked
          · exact .relayingNested loaded .returned (by simp)
      | returned =>
          cases act <;> cases hstep
          exact .destroying .returned
  | destroyed h =>
      cases h with
      | sent =>
          cases act <;> cases hstep
          exact .destroyed .received
      | received =>
          cases act <;> cases hstep
          exact .destroyed .unlinked
      | unlinked =>
          cases act <;> cases hstep
          exact .destroyed .returned
      | returned => cases act <;> cases hstep

theorem stage_run {acts : List AskAct} {s : Asking}
    (h : askMachine.run Asking.start acts = some s) : Stage (clicksOf acts) s := by
  apply Machine.run_invariant_past_nil (I := fun past s => Stage (clicksOf past) s) ?_ acts ?_ h
  · intro past s act s' hstage hstep
    have hpast : clicksOf (past ++ [act]) = clicksOf past ++ clicksOf [act] :=
      List.filterMap_append
    rw [hpast]
    exact stage_step hstage hstep
  · exact .posted

/-! ## What the threads rely on -/

/-- The answer that the thread has received. -/
def AskPhase.answer : AskPhase → Option Bool
  | .receiving => none
  | .received answer => some answer
  | .unlinked answer => some answer
  | .returned answer => some answer

/-- The stack frame with the confirmation is gone. -/
def AskPhase.dropped : AskPhase → Bool
  | .returned _ => true
  | _ => false

/-- What holds of a state, with the clicks so far. -/
structure PointerSound (clicks : List Bool) (s : Asking) : Prop where
  /-- A pointer of the window that is not null points to the confirmation. -/
  linked : s.window = .shown true → s.ask.dropped = false
  /-- The sender is used through a pointer that is not null, while its receiver waits. -/
  sender : ∀ linked answer, s.proc = .sending linked answer →
    linked = true ∧ s.ask = .receiving ∧ s.channel = []
  /-- The dialog gets one click. -/
  once : clicks.length ≤ 1
  /-- The thread has the answer of that click. -/
  answer : ∀ answer, s.ask.answer = some answer → clicks = [answer]

theorem Delivered.sound {answer linked : Bool} {ask : AskPhase} {channel : List Bool}
    (h : Delivered answer ask channel linked) :
    (linked = true → ask.dropped = false) ∧
      ∀ answer', ask.answer = some answer' → [answer] = [answer'] := by
  cases h with
  | sent => exact ⟨fun _ => rfl, fun _ hanswer => by cases hanswer⟩
  | received => exact ⟨fun _ => rfl, fun _ hanswer => by cases hanswer; rfl⟩
  | unlinked => exact ⟨fun _ => rfl, fun _ hanswer => by cases hanswer; rfl⟩
  | returned => exact ⟨fun hlinked => (by cases hlinked), fun _ hanswer => by cases hanswer; rfl⟩

theorem pointerSound_of_stage {clicks : List Bool} {s : Asking} (h : Stage clicks s) :
    PointerSound clicks s := by
  -- before the answer is sent the thread waits
  have hwaits (clicks : List Bool) (window : DialogWindow) (proc : ProcPhase)
      (hproc : ∀ linked answer, proc = .sending linked answer → linked = true)
      (hclicks : clicks.length ≤ 1) :
      PointerSound clicks ⟨.receiving, [], window, proc⟩ :=
    ⟨fun _ => rfl, fun linked answer hsending => ⟨hproc linked answer hsending, rfl, rfl⟩, hclicks,
      fun _ hanswer => by cases hanswer⟩
  cases h with
  | posted => exact hwaits _ _ _ (by simp) (by simp)
  | idle => exact hwaits _ _ _ (by simp) (by simp)
  | relaying click => exact hwaits _ _ _ (by simp) (by cases click <;> simp)
  | command answer => exact hwaits _ _ _ (by simp) (by simp)
  | sending answer =>
      refine hwaits _ _ _ ?_ (by simp)
      intro linked answer' hsending
      cases hsending
      rfl
  | destroying h =>
      refine ⟨?_, by simp, by simp, h.sound.2⟩
      intro hshown
      cases hshown
      exact h.sound.1 rfl
  | relayingNested loaded h hloaded =>
      refine ⟨?_, by simp, by simp, h.sound.2⟩
      intro hshown
      cases hshown
      exact h.sound.1 rfl
  | destroyed h => exact ⟨by simp, by simp, by simp, h.sound.2⟩

/-- **The pointer and the channel.** In every interleaving the pointer in the window is null or the
confirmation is still there, the dialog sends one answer, to a receiver that waits, and the thread
goes on with this answer. -/
theorem dialog_pointer_sound (acts : List AskAct) (s : Asking)
    (h : askMachine.run Asking.start acts = some s) : PointerSound (clicksOf acts) s :=
  pointerSound_of_stage (stage_run h)

/-- A confirmation that is refused, up to the return of its thread. -/
def refusing : List AskAct :=
  [.show, .message none, .relay, .message (some false), .relay, .loadSender, .send, .messageNested,
    .relayNested, .receive, .unlink, .destroyed, .drop]

theorem dialog_pointer_sound_refusing :
    PointerSound [false] ⟨.returned false, [], .destroyed, .idle⟩ :=
  dialog_pointer_sound refusing _ (by decide)

/-! ## Pointers that were loaded -/

/-- The pointer that `dlg_proc` uses next, if it is not null. -/
def ProcPhase.loaded : ProcPhase → Bool
  | .relaying linked _ => linked
  | .sending linked _ => linked
  | .relayingNested linked => linked
  | _ => false

/-- The next thing that `dlg_proc` does is to use a pointer to what is dropped. -/
def Asking.Dangling (s : Asking) : Prop := s.proc.loaded = true ∧ s.ask.dropped = true

instance : DecidablePred Asking.Dangling := fun s =>
  inferInstanceAs (Decidable (s.proc.loaded = true ∧ s.ask.dropped = true))

/-- The confirmation is not dropped while a call of `dlg_proc` by `DestroyWindow` has its
pointer. -/
def DropsLate (s : Asking) (act : AskAct) : Prop :=
  act = .drop → s.proc ≠ .relayingNested true

instance (s : Asking) (act : AskAct) : Decidable (DropsLate s act) :=
  inferInstanceAs (Decidable (_ → _))

/-- What is loaded behind the null pointer is null, so only a drop can leave a pointer dangling. -/
theorem dangling_step_iff {clicks : List Bool} {s s' : Asking} {act : AskAct} (h : Stage clicks s)
    (hsafe : ¬ s.Dangling) (hstep : askMachine.step s act = some s') :
    ¬ s'.Dangling ↔ DropsLate s act := by
  have hother (hact : act ≠ .drop) (hs' : s'.ask.dropped = false ∨ s'.proc.loaded = false) :
      ¬ s'.Dangling ↔ DropsLate s act := by
    refine iff_of_true ?_ (fun hdrop => absurd hdrop hact)
    rintro ⟨hloaded, hdropped⟩
    rcases hs' with hs' | hs'
    · rw [hs'] at hdropped
      cases hdropped
    · rw [hs'] at hloaded
      cases hloaded
  cases h with
  | posted =>
      cases act <;> cases hstep
      exact hother (by simp) (Or.inl rfl)
  | idle =>
      cases act <;> cases hstep
      exact hother (by simp) (Or.inl rfl)
  | relaying click =>
      cases act with
      | relay =>
          cases click <;> cases hstep
          · exact hother (by simp) (Or.inl rfl)
          · exact hother (by simp) (Or.inl rfl)
      | _ => cases hstep
  | command answer =>
      cases act <;> cases hstep
      exact hother (by simp) (Or.inl rfl)
  | sending answer =>
      cases act <;> cases hstep
      exact hother (by simp) (Or.inl rfl)
  | destroying h =>
      cases h with
      | sent => cases act <;> cases hstep <;> exact hother (by simp) (Or.inl rfl)
      | received => cases act <;> cases hstep <;> exact hother (by simp) (Or.inl rfl)
      | unlinked =>
          cases act <;> cases hstep
          · exact hother (by simp) (Or.inl rfl)
          · exact hother (by simp) (Or.inl rfl)
          · exact iff_of_true (by simp [Asking.Dangling, ProcPhase.loaded]) (by simp [DropsLate])
      | returned => cases act <;> cases hstep <;> exact hother (by simp) (Or.inr rfl)
  | relayingNested loaded h hloaded =>
      cases h with
      | sent => cases act <;> cases hstep <;> exact hother (by simp) (Or.inl rfl)
      | received => cases act <;> cases hstep <;> exact hother (by simp) (Or.inl rfl)
      | unlinked =>
          cases act <;> cases hstep
          · exact hother (by simp) (Or.inl rfl)
          -- the pointer that was loaded before the drop
          · simp [Asking.Dangling, ProcPhase.loaded, AskPhase.dropped, DropsLate]
      | returned =>
          cases act <;> cases hstep
          exact hother (by simp) (Or.inr rfl)
  | destroyed h =>
      cases h with
      | sent =>
          cases act <;> cases hstep
          exact hother (by simp) (Or.inl rfl)
      | received =>
          cases act <;> cases hstep
          exact hother (by simp) (Or.inl rfl)
      | unlinked =>
          cases act <;> cases hstep
          exact iff_of_true (by simp [Asking.Dangling, ProcPhase.loaded]) (by simp [DropsLate])
      | returned => cases act <;> cases hstep

/-- **Dangling pointers.** No pointer is used after the drop exactly when the confirmation is never
dropped while a message that `DestroyWindow` sends has loaded its pointer and not used it. -/
theorem never_dangling_iff (acts : List AskAct) :
    askMachine.AllStates (fun s => ¬ s.Dangling) Asking.start acts ↔
      askMachine.AllSteps DropsLate Asking.start acts := by
  apply Machine.allStates_iff_allSteps (J := fun s => ∃ clicks, Stage clicks s)
  · rintro s act s' ⟨clicks, hstage⟩ _ _ hstep
    exact ⟨_, stage_step hstage hstep⟩
  · rintro s act s' ⟨clicks, hstage⟩ hsafe hstep
    exact dangling_step_iff hstage hsafe hstep
  · exact ⟨[], .posted⟩
  · decide

/-- The answer is fast: it is there before the dialog is destroyed. -/
example : ¬ askMachine.AllStates (fun s => ¬ s.Dangling) Asking.start
    [.show, .message (some true), .relay, .loadSender, .send, .messageNested, .receive, .unlink,
      .drop] := by
  decide

end SshKeys
