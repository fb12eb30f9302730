import SshKeys.Store
import SshKeys.Lib.Utf16

/-!
# The text of a confirmation

What the dialog says, after `WM_INITDIALOG` in `platform/win/confirmation.rs`: the requester, the
name of the key and the channel, each in a control of its own. A control is given its text up to the
first zero, and draws it as static controls do: one line of it, without the `&` that marks a
mnemonic. The name of a key is any text that its sender chose, so names that differ can look the
same, and the name is all that is shown of the key.

How a control draws its text is a parameter. `prompt_tells_key_iff` says for every such way when the
dialog tells which of the stored keys would sign.
-/

set_option autoImplicit false

namespace SshKeys

open Lib

/-! ## The dialog -/

/-- `to_utf16_null` -/
def toUtf16Null (s : String) : List UInt16 := Utf16.encode s.toList ++ [0]

/-- The text of a control after `SetDlgItemTextW`, which takes a string that ends with a zero. -/
def dlgItemText (text : List UInt16) : List UInt16 := text.takeWhile (· ≠ 0)

/-- The texts of the controls `4`, `6` and `8`. -/
structure Prompt where
  requester : List UInt16
  keyName : List UInt16
  channel : List UInt16
  deriving DecidableEq

/-- The requester in the dialog, or that it is not known. -/
def descriptionShort (info : RequestInfo) : String :=
  match info.requester with
  | some requester => requester.descriptionShort
  | none => "Unknown"

/-- `WM_INITDIALOG` -/
def initDialog (keyPair : KeyPair) (info : RequestInfo) : Prompt where
  requester := dlgItemText (toUtf16Null (descriptionShort info))
  keyName := dlgItemText (toUtf16Null keyPair.name)
  channel := dlgItemText (toUtf16Null info.channel)

/-- What is in front of the first zero of a text. -/
def untilZero (s : String) : List Char := s.toList.takeWhile (· ≠ '\x00')

theorem dlgItemText_toUtf16Null (s : String) :
    dlgItemText (toUtf16Null s) = Utf16.encode (untilZero s) := Utf16.takeWhile_encode s.toList []

/-- Controls get the same text when the texts agree in front of their first zeros. -/
theorem dlgItemText_eq_iff (s s' : String) :
    dlgItemText (toUtf16Null s) = dlgItemText (toUtf16Null s') ↔ untilZero s = untilZero s' := by
  rw [dlgItemText_toUtf16Null, dlgItemText_toUtf16Null]
  constructor
  · intro h
    have hdecode := congrArg Utf16.decode h
    rwa [Utf16.decode_encode, Utf16.decode_encode, Option.some.injEq] at hdecode
  · intro h
    rw [h]

/-! ## What is drawn

A control draws its text by `draws`, whatever this leaves out of it. -/

section Draws

variable {β : Type} (draws : List UInt16 → β)

/-- What the controls draw. -/
def Prompt.drawn (prompt : Prompt) : β × β × β :=
  (draws prompt.requester, draws prompt.keyName, draws prompt.channel)

/-- What the control of the name draws for a key of this name. -/
def drawnName (name : String) : β := draws (dlgItemText (toUtf16Null name))

/-- **Two dialogs** of one request look the same exactly when the names of their keys do. Nothing
else of the keys matters. -/
theorem drawn_initDialog_eq_iff (keyPair keyPair' : KeyPair) (info : RequestInfo) :
    (initDialog keyPair info).drawn draws = (initDialog keyPair' info).drawn draws ↔
      drawnName draws keyPair.name = drawnName draws keyPair'.name := by
  simp only [Prompt.drawn, initDialog, Prod.mk.injEq, true_and, and_true, drawnName]

/-- What is behind a zero is hidden, however a control draws its text. -/
theorem drawnName_eq_of_untilZero_eq {name name' : String} (h : untilZero name = untilZero name') :
    drawnName draws name = drawnName draws name' := by
  rw [drawnName, (dlgItemText_eq_iff name name').2 h, drawnName]

/-- Nothing else is hidden by a control that draws all of its text. -/
theorem drawnName_eq_iff_of_injective (hdraws : Function.Injective draws) (name name' : String) :
    drawnName draws name = drawnName draws name' ↔ untilZero name = untilZero name' := by
  rw [drawnName, drawnName, hdraws.eq_iff, dlgItemText_eq_iff]

/-! ## The key that would sign -/

/-- The dialog of a request tells which of the stored keys it is about. -/
def TellsKey (w : World) : Prop :=
  ∀ info, ∀ keyPair ∈ w.config.keys, ∀ keyPair' ∈ w.config.keys,
    (initDialog keyPair info).drawn draws = (initDialog keyPair' info).drawn draws →
      keyPair.publicKey = keyPair'.publicKey

/-- A new key does not look like a stored one. -/
def LooksNew (w : World) (call : Call) : Prop :=
  ∀ keyPair ∈ addedBy call.buf, keyPair.publicKey ∉ w.publicKeys →
    ∀ stored ∈ w.config.keys, drawnName draws keyPair.name ≠ drawnName draws stored.name

theorem tellsKey_iff (w : World) :
    TellsKey draws w ↔ ∀ keyPair ∈ w.config.keys, ∀ keyPair' ∈ w.config.keys,
      drawnName draws keyPair.name = drawnName draws keyPair'.name →
        keyPair.publicKey = keyPair'.publicKey := by
  constructor
  · intro h keyPair hmem keyPair' hmem' hname
    -- the same request, whatever it is, shows nothing else that differs
    apply h { channel := "Pipe", requester := none } keyPair hmem keyPair' hmem'
    exact (drawn_initDialog_eq_iff draws _ _ _).2 hname
  · intro h info keyPair hmem keyPair' hmem' hdialog
    exact h keyPair hmem keyPair' hmem' ((drawn_initDialog_eq_iff draws _ _ _).1 hdialog)

instance [DecidableEq β] : DecidablePred (TellsKey draws) := fun w =>
  decidable_of_iff' _ (tellsKey_iff draws w)

instance [DecidableEq β] (w : World) : DecidablePred (LooksNew draws w) := fun call =>
  inferInstanceAs (Decidable (∀ keyPair ∈ addedBy call.buf, _))

/-- **One request** leaves the stored keys apart exactly when it does not bring a new key that looks
like one of them. -/
theorem tellsKey_handled_iff (crates : Crates) {w : World} (call : Call) (h : TellsKey draws w) :
    TellsKey draws (handled crates call.info w call.buf).world ↔ LooksNew draws w call := by
  rw [tellsKey_iff] at h ⊢
  rcases stores_or_untouched crates call.info w call.buf with
    ⟨keyPair, hadd, hnew⟩ | ⟨hpresent, hsame⟩
  · have hkeys : (handled crates call.info w call.buf).world.config.keys =
        w.config.keys ++ [keyPair] := by
      rw [handled_of_new hadd hnew]
      rfl
    rw [hkeys]
    constructor
    · intro hall keyPair' hadd' hnew' stored hstored hname
      rw [hadd, Option.mem_def, Option.some.injEq] at hadd'
      subst hadd'
      have hpublic := hall keyPair (List.mem_append_right _ List.mem_cons_self) stored
        (List.mem_append_left _ hstored) hname
      exact hnew (hpublic ▸ List.mem_map_of_mem hstored)
    · intro hlooks first hfirst second hsecond hname
      rcases List.mem_append.1 hfirst with hfirst | hfirst
      · rcases List.mem_append.1 hsecond with hsecond | hsecond
        · exact h first hfirst second hsecond hname
        · rw [List.mem_singleton.1 hsecond] at hname
          exact absurd hname.symm (hlooks keyPair hadd hnew first hfirst)
      · rw [List.mem_singleton.1 hfirst] at hname ⊢
        rcases List.mem_append.1 hsecond with hsecond | hsecond
        · exact absurd hname (hlooks keyPair hadd hnew second hsecond)
        · rw [List.mem_singleton.1 hsecond]
  · rw [hsame.config]
    apply iff_of_true h
    intro keyPair hadd hnew
    exact absurd (hpresent keyPair hadd) hnew

/-- **The dialog tells the key** in every state of a run, from one where it does, exactly when no
request of the run brings a new key whose name is drawn like that of a stored key. -/
theorem prompt_tells_key_iff (crates : Crates) (w : World) (calls : List Call)
    (h : TellsKey draws w) :
    (agentMachine crates).AllStates (TellsKey draws) w calls ↔
      (agentMachine crates).AllSteps (LooksNew draws) w calls := by
  apply Machine.allStates_iff_allSteps (J := fun _ => True)
  · intro w call w' _ _ _ _
    trivial
  · intro w call w' _ htells hstep
    rw [agentMachine_step_eq_some hstep]
    exact tellsKey_handled_iff draws crates call htells
  · trivial
  · exact h

end Draws

/-- One line of a text, without the prefix characters: what a `CTEXT` draws, where no prefix
character is doubled. -/
def drawsStatic (text : List UInt16) : List UInt16 :=
  (text.takeWhile fun u => u ≠ 10 ∧ u ≠ 13).filter (· ≠ 38)

/-- Two keys of which one is named like the other but for a prefix character. -/
theorem hidden_name_is_not_told :
    ¬ (agentMachine Reference.crates).AllStates (TellsKey drawsStatic) (emptyWorld true .none)
      [⟨⟨"Pipe", none⟩, addIdentityRequest smallKey "ab"⟩,
        ⟨⟨"Unix", none⟩, addIdentityRequest { smallKey with e := 7 } "a&b"⟩] := by
  intro h
  exact absurd
    ((prompt_tells_key_iff drawsStatic Reference.crates (emptyWorld true .none) _
      (by decide)).1 h)
    (by decide +kernel)

end SshKeys
