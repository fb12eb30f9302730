import SshKeys.Store

/-!
# The file and the key list over runs

What the configuration file holds after a run of requests, compared with the agent's key list. The
list tells keys apart by their numbers, the file by their names: after successful saves the file
loads exactly when the stored names are distinct (`loadConfig_after_run`). An addition is
acknowledged without a save when its key is in the list already, so it is in the file unless the
last save failed (`durable_iff`).
-/

set_option autoImplicit false

namespace SshKeys

open Lib Lib.FirstWins

instance (crates : Crates) (w : World) (buf : Bytes) :
    Decidable (UnsavedAddition crates w buf) :=
  match h : addedBy buf with
  | none => isFalse (by rintro ⟨keyPair, hk, -⟩; simp [h] at hk)
  | some keyPair =>
      decidable_of_iff (keyPair.publicKey ∉ w.publicKeys ∧ ¬ w.SaveOk crates keyPair)
        (by simp [UnsavedAddition, h])

/-! ## Loading what was saved -/

/-- Every save of the run succeeds. -/
def SavesSucceed (crates : Crates) (w : World) (calls : List Call) : Prop :=
  (agentMachine crates).AllSteps (fun w call => ¬ UnsavedAddition crates w call.buf) w calls

instance (crates : Crates) (w : World) (calls : List Call) :
    Decidable (SavesSucceed crates w calls) :=
  inferInstanceAs (Decidable ((agentMachine crates).AllSteps _ w calls))

/-- The file is the text of the list, or both are as they were at the start. -/
def Persisted (crates : Crates) (w : World) : Prop :=
  (w.config.keys = [] ∧ loadConfig crates .none w.file = .ok w.config) ∨
    ∃ bytes, w.file = some bytes ∧ Saved crates w.config.keys bytes

theorem persisted_handled {crates : Crates} {w : World} {call : Call} (h : Persisted crates w)
    (hsave : ¬ UnsavedAddition crates w call.buf) :
    Persisted crates (handled crates call.info w call.buf).world := by
  rcases stores_or_untouched crates call.info w call.buf with ⟨keyPair, hadd, hnew⟩ | ⟨-, hsame⟩
  · have hok : w.SaveOk crates keyPair := by
      by_contra hnot
      exact hsave ⟨keyPair, hadd, hnew, hnot⟩
    -- the save of a new key writes the whole list
    obtain ⟨bytes, hbytes, hsaved⟩ := saved_of_save hok
    rw [handled_of_new hadd hnew]
    exact Or.inr ⟨bytes, hbytes, hsaved⟩
  · rw [Persisted, hsame.config, hsame.file]
    exact h

theorem persisted_run {crates : Crates} {calls : List Call} {w w' : World}
    (h : Persisted crates w) (hsaves : SavesSucceed crates w calls)
    (hrun : (agentMachine crates).run w calls = some w') : Persisted crates w' := by
  induction calls generalizing w with
  | nil =>
      rw [← Option.some.inj hrun]
      exact h
  | cons call calls ih =>
      obtain ⟨w₁, hstep, hrun⟩ := Machine.run_cons_eq_some hrun
      obtain ⟨hsave, hsaves⟩ := hsaves w₁ hstep
      refine ih ?_ hsaves hrun
      rw [agentMachine_step_eq_some hstep]
      exact persisted_handled h hsave

/-- **Loading what was saved.** From an empty configuration, after any run whose saves succeed, the
file loads to the agent's list exactly when the keys that were stored have distinct names. -/
theorem loadConfig_after_run (crates : Crates) (hl : crates.Lawful) (w w' : World)
    (calls : List Call) (hempty : w.config = Config.default)
    (hfile : loadConfig crates .none w.file = .ok w.config)
    (hsaves : SavesSucceed crates w calls)
    (hrun : (agentMachine crates).run w calls = some w') :
    loadConfig crates .none w'.file = .ok w'.config ↔
      ((keepFirst KeyPair.publicKey (additions calls)).map KeyPair.name).Nodup := by
  have hnil : w.config.keys = [] := by
    rw [hempty]
    rfl
  have hkeys : w'.config.keys = keepFirst KeyPair.publicKey (additions calls) := by
    rw [run_config_keys_foldl hrun, foldl_insertNew, hnil]
    simp
  rw [← hkeys]
  -- without a save nothing was stored; otherwise the file is the text of the list
  rcases persisted_run (Or.inl ⟨hnil, hfile⟩) hsaves hrun with ⟨hnone, hload⟩ |
    ⟨bytes, hbytes, hsaved⟩
  · simp [hnone, hload]
  · rw [hbytes, loadConfig_saved hl hsaved]
    by_cases hn : (w'.config.keys.map KeyPair.name).Nodup
    · simp [hn]
    · simp [hn]

/-- Two keys with different names. -/
theorem loadConfig_after_run_small :
    ∃ w', (agentMachine Reference.crates).run (emptyWorld true .none)
        [⟨⟨"Pipe", none⟩, addIdentityRequest smallKey "a"⟩,
          ⟨⟨"Pipe", none⟩, addIdentityRequest { smallKey with e := 7 } "b"⟩] = some w' ∧
      loadConfig Reference.crates .none w'.file = .ok w'.config := by
  obtain ⟨w', hw'⟩ := Option.isSome_iff_exists.1
    (show ((agentMachine Reference.crates).run (emptyWorld true .none)
      [⟨⟨"Pipe", none⟩, addIdentityRequest smallKey "a"⟩,
        ⟨⟨"Pipe", none⟩, addIdentityRequest { smallKey with e := 7 } "b"⟩]).isSome = true by
      decide +kernel)
  exact ⟨w', hw', (loadConfig_after_run Reference.crates Reference.lawful (emptyWorld true .none) w'
    _ rfl rfl (by decide +kernel) hw').2 (by decide +kernel)⟩

/-- Two keys with one name are saved, and the file does not load. -/
theorem same_name_does_not_load :
    ∃ w', (agentMachine Reference.crates).run (emptyWorld true .none)
        [⟨⟨"Pipe", none⟩, addIdentityRequest smallKey "a"⟩,
          ⟨⟨"Pipe", none⟩, addIdentityRequest { smallKey with e := 7 } "a"⟩] = some w' ∧
      SavesSucceed Reference.crates (emptyWorld true .none)
        [⟨⟨"Pipe", none⟩, addIdentityRequest smallKey "a"⟩,
          ⟨⟨"Pipe", none⟩, addIdentityRequest { smallKey with e := 7 } "a"⟩] ∧
      loadConfig Reference.crates .none w'.file = .err (.crate "toml") := by
  have hsaved : ((agentMachine Reference.crates).run (emptyWorld true .none)
      [⟨⟨"Pipe", none⟩, addIdentityRequest smallKey "a"⟩,
        ⟨⟨"Pipe", none⟩, addIdentityRequest { smallKey with e := 7 } "a"⟩]).map World.file =
          some (some (Reference.textOf
            [smallPair smallKey "a", smallPair { smallKey with e := 7 } "a"])) := by
    decide +kernel
  obtain ⟨w', hw', hfile⟩ := Option.map_eq_some_iff.1 hsaved
  refine ⟨w', hw', by decide +kernel, ?_⟩
  -- two tables have one name
  rw [hfile, loadConfig_saved Reference.lawful (Reference.saved_textOf _), if_neg (by decide)]

/-! ## Acknowledged additions -/

/-- The agent, and whether its last attempt to save failed. -/
structure Saving where
  world : World
  dirty : Bool

/-- Whether the last attempt to save failed, after further events. -/
def lastSaveFailed (dirty : Bool) (events : List Event) : Bool :=
  events.foldl (fun d event =>
    match event with
    | .save ok => !ok
    | _ => d) dirty

/-- `agentMachine`, with a record of how the last save went. -/
def savingMachine (crates : Crates) : Machine Saving Call where
  step s call :=
    match Agent.handleRequest crates call.buf call.info s.world with
    | ⟨.ok _, w', events⟩ => some { world := w', dirty := lastSaveFailed s.dirty events }
    | _ => none

/-- If the request is an addition and is acknowledged, its key is in the file. -/
def Durable (crates : Crates) (s : Saving) (call : Call) : Prop :=
  ∀ keyPair, addedBy call.buf = some keyPair →
    (Agent.handleRequest crates call.buf call.info s.world).outcome = .ok [sshAgentSuccess] →
    keyPair.publicKey ∈
      fileKeys crates (Agent.handleRequest crates call.buf call.info s.world).world.file

/-- After a failed save, the request adds a key that is in the list but not in the file. The record
of the save says where such a state comes from; in a run it follows from the rest
(`retriesUnsaved_iff_of_clean`). -/
def RetriesUnsaved (crates : Crates) (s : Saving) (call : Call) : Prop :=
  s.dirty = true ∧ ∃ keyPair, addedBy call.buf = some keyPair ∧
    keyPair.publicKey ∈ s.world.publicKeys ∧ keyPair.publicKey ∉ fileKeys crates s.world.file

/-- Unless the last save failed, every key of the list is in the file. -/
def Saving.Clean (crates : Crates) (s : Saving) : Prop :=
  s.dirty = false → ∀ k ∈ s.world.publicKeys, k ∈ fileKeys crates s.world.file

instance (crates : Crates) (s : Saving) (call : Call) : Decidable (Durable crates s call) :=
  match h : addedBy call.buf with
  | none => isTrue (by simp [Durable, h])
  | some keyPair =>
      decidable_of_iff
        ((Agent.handleRequest crates call.buf call.info s.world).outcome = .ok [sshAgentSuccess] →
          keyPair.publicKey ∈ fileKeys crates
            (Agent.handleRequest crates call.buf call.info s.world).world.file)
        (by simp [Durable, h])

instance (crates : Crates) (s : Saving) (call : Call) :
    Decidable (RetriesUnsaved crates s call) :=
  match h : addedBy call.buf with
  | none => isFalse (by simp [RetriesUnsaved, h])
  | some keyPair =>
      decidable_of_iff
        (s.dirty = true ∧ keyPair.publicKey ∈ s.world.publicKeys ∧
          keyPair.publicKey ∉ fileKeys crates s.world.file)
        (by simp [RetriesUnsaved, h])

theorem lastSaveFailed_of_signing {events : List Event} (h : ∀ event ∈ events, event.OfSigning)
    (dirty : Bool) : lastSaveFailed dirty events = dirty := by
  induction events with
  | nil => rfl
  | cons event events ih =>
      have hrest := ih fun event' hevent' => h event' (List.mem_cons_of_mem _ hevent')
      have hevent := h event List.mem_cons_self
      cases event with
      | confirm keyPair info answer => exact hrest
      | sign key msg flags sig => exact hrest
      | request keys buf info => exact absurd hevent not_false
      | save ok => exact absurd hevent not_false
      | reply resp => exact absurd hevent not_false

theorem savingMachine_step_eq_some {crates : Crates} {s s' : Saving} {call : Call}
    (h : (savingMachine crates).step s call = some s') :
    s'.world = (handled crates call.info s.world call.buf).world ∧
      s'.dirty = lastSaveFailed s.dirty (handled crates call.info s.world call.buf).events := by
  simp only [savingMachine, Agent.handleRequest_eq, Effect.after] at h
  generalize handled crates call.info s.world call.buf = r at h ⊢
  rcases r with ⟨outcome, w', events⟩
  cases outcome with
  | ok reply =>
      rw [← Option.some.inj h]
      exact ⟨rfl, rfl⟩
  | err e => cases h
  | panic => cases h

section Lawful

variable {crates : Crates} (hl : crates.Lawful)

include hl

/-- A successful save puts the whole list with the new key into the file. -/
theorem fileKeys_saved_of_saveOk {w : World} {keyPair : KeyPair} (h : w.SaveOk crates keyPair) :
    fileKeys crates (w.saved crates keyPair).2 = w.publicKeys ++ [keyPair.publicKey] := by
  obtain ⟨bytes, hbytes, hsaved⟩ := saved_of_save h
  rw [World.saved, hbytes, fileKeys_saved hl hsaved, World.publicKeys]
  simp

theorem clean_step {s s' : Saving} {call : Call} (hs : s.Clean crates)
    (h : (savingMachine crates).step s call = some s') : s'.Clean crates := by
  obtain ⟨hworld, hdirty⟩ := savingMachine_step_eq_some h
  rw [Saving.Clean, World.publicKeys, hworld, hdirty]
  rcases stores_or_untouched crates call.info s.world call.buf with ⟨keyPair, hadd, hnew⟩ |
    ⟨-, hsame⟩
  -- a save was attempted, and its fate is the new record
  · rw [handled_of_new hadd hnew]
    intro hok k hk
    have hsave : s.world.SaveOk crates keyPair := by simpa [lastSaveFailed] using hok
    show k ∈ fileKeys crates (s.world.saved crates keyPair).2
    rw [fileKeys_saved_of_saveOk hl hsave, World.publicKeys]
    simpa [World.store] using hk
  -- nothing was saved, and list, file and record are as before
  · rw [lastSaveFailed_of_signing hsame.events, hsame.config, hsame.file]
    exact hs

/-- One addition is durable unless its key is in the list and not in the file. -/
theorem durable_step_iff {s : Saving} {call : Call} :
    Durable crates s call ↔ ¬ ∃ keyPair, addedBy call.buf = some keyPair ∧
      keyPair.publicKey ∈ s.world.publicKeys ∧
      keyPair.publicKey ∉ fileKeys crates s.world.file := by
  rw [Durable, outcome_handleRequest, world_handleRequest]
  cases hadd : addedBy call.buf with
  | none => simp
  | some keyPair =>
      simp only [Option.some.injEq, forall_eq', exists_eq_left', not_and, not_not]
      -- a key in the list is acknowledged at once, so the file decides
      by_cases hmem : keyPair.publicKey ∈ s.world.publicKeys
      · simp [handled_of_present hadd hmem, hmem]
      · simp only [hmem, false_implies, iff_true]
        rw [handled_of_new hadd hmem]
        -- a new key is acknowledged only after a save that put it into the file
        by_cases hsave : s.world.SaveOk crates keyPair
        · intro _
          show _ ∈ fileKeys crates (s.world.saved crates keyPair).2
          rw [fileKeys_saved_of_saveOk hl hsave]
          simp
        · intro h
          simp [hsave, sshAgentFailure, sshAgentSuccess] at h

omit hl in
/-- A key is in the list and not in the file only after a failed save. -/
theorem retriesUnsaved_iff_of_clean {s : Saving} {call : Call} (hs : s.Clean crates) :
    RetriesUnsaved crates s call ↔ ∃ keyPair, addedBy call.buf = some keyPair ∧
      keyPair.publicKey ∈ s.world.publicKeys ∧
      keyPair.publicKey ∉ fileKeys crates s.world.file := by
  rw [RetriesUnsaved, and_iff_right_iff_imp]
  rintro ⟨keyPair, -, hmem, hnot⟩
  by_contra hclean
  exact hnot (hs (Bool.eq_false_of_not_eq_true hclean) _ hmem)

/-- **Durability of acknowledged additions.** In a run from a state where file and list agree, every
acknowledged addition is in the file at that moment exactly when no request, after a failed save,
adds a key that is in the list but not in the file. -/
theorem durable_iff (w : World) (hagree : loadConfig crates .none w.file = .ok w.config)
    (calls : List Call) :
    (savingMachine crates).AllSteps (Durable crates) { world := w, dirty := false } calls ↔
      (savingMachine crates).AllSteps (fun s call => ¬ RetriesUnsaved crates s call)
        { world := w, dirty := false } calls := by
  -- the invariant: the file has every key of the list unless the last save failed
  refine Machine.allSteps_congr (J := Saving.Clean crates)
    (fun s call s' hs _ h => clean_step hl hs h) (fun s call s' hs _ => ?_) calls ?_
  · rw [durable_step_iff hl, retriesUnsaved_iff_of_clean hs]
  · intro _ k hk
    rw [fileKeys_of_loadConfig hagree]
    exact hk

end Lawful

/-- An addition whose save succeeds, sent twice. -/
theorem durable_iff_small :
    (savingMachine Reference.crates).AllSteps (Durable Reference.crates)
      { world := emptyWorld true .none, dirty := false }
      [⟨⟨"Pipe", none⟩, addIdentityRequest smallKey "a"⟩,
        ⟨⟨"Pipe", none⟩, addIdentityRequest smallKey "a"⟩] :=
  (durable_iff Reference.lawful (emptyWorld true .none) rfl _).2 (by decide +kernel)

/-- The save of an addition fails; the client sends it again and is told that it succeeded. -/
theorem retry_is_not_durable :
    ¬ (savingMachine Reference.crates).AllSteps (Durable Reference.crates)
      { world := emptyWorld true .create, dirty := false }
      [⟨⟨"Pipe", none⟩, addIdentityRequest smallKey "a"⟩,
        ⟨⟨"Pipe", none⟩, addIdentityRequest smallKey "a"⟩] := by
  decide +kernel

/-! ## Failed saves -/

/-- A save that returns an error leaves the file as it was, so that a later load yields what it
would have yielded before. -/
def FailedSaveKeepsFile (crates : Crates) (fault : SaveFault) (config : Config)
    (file : Option Bytes) : Prop :=
  ∀ e, (Config.save crates fault config file).1 = .err e →
    (Config.save crates fault config file).2 = file ∧
      ∀ fault', loadConfig crates fault' (Config.save crates fault config file).2 =
        loadConfig crates fault' file

/-- The file cannot be opened, or nothing fails, or the file already is what the failure leaves:
empty if the serialiser fails, and the part of the text that was written otherwise. -/
def LosesNothing (crates : Crates) (fault : SaveFault) (config : Config) (file : Option Bytes) :
    Prop :=
  fault = .create ∨
    match crates.toStringPretty (serializeKeyPairs crates.toOpenssl config.keys) with
    | none => file = some []
    | some text => ∀ room, fault = .write room → room < text.length → file = some (text.take room)

section FailedSave

variable {crates : Crates} {fault : SaveFault} {config : Config} {file : Option Bytes}

/-- After an error nothing is lost exactly when the file already was what is left, -/
theorem failedSaveKeepsFile_of_err {e : Error} {left : Option Bytes}
    (h : Config.save crates fault config file = (.err e, left)) :
    FailedSaveKeepsFile crates fault config file ↔ file = left := by
  rw [FailedSaveKeepsFile, h]
  constructor
  · intro hkeeps
    exact (hkeeps e rfl).1.symm
  · rintro rfl e' -
    exact ⟨rfl, fun fault' => rfl⟩

/-- and a success loses nothing. -/
theorem failedSaveKeepsFile_of_ok {left : Option Bytes}
    (h : Config.save crates fault config file = (.ok (), left)) :
    FailedSaveKeepsFile crates fault config file := by
  rw [FailedSaveKeepsFile, h]
  intro e herr
  cases herr

end FailedSave

/-- **Failed saves.** A failed save leaves the file as it was exactly when it failed at opening the
file, or the file already was what the failed save leaves of it. -/
theorem failed_save_keeps_file_iff (crates : Crates) (fault : SaveFault) (config : Config)
    (file : Option Bytes) :
    FailedSaveKeepsFile crates fault config file ↔ LosesNothing crates fault config file := by
  rw [LosesNothing]
  by_cases hcreate : fault = .create
  · subst hcreate
    exact iff_of_true ((failedSaveKeepsFile_of_err rfl).2 rfl) (Or.inl rfl)
  -- the file is opened, and truncated, before the text is made
  simp only [hcreate, false_or]
  cases htext : crates.toStringPretty (serializeKeyPairs crates.toOpenssl config.keys) with
  | none =>
      have hsave : Config.save crates fault config file = (.err (.crate "toml"), some []) := by
        cases fault with
        | create => exact absurd rfl hcreate
        | none => simp [Config.save, htext]
        | write room => simp [Config.save, htext]
      exact failedSaveKeepsFile_of_err hsave
  | some text =>
      cases fault with
      | create => exact absurd rfl hcreate
      | none =>
          have hsave : Config.save crates .none config file = (.ok (), some text) := by
            simp [Config.save, htext]
          exact iff_of_true (failedSaveKeepsFile_of_ok hsave) (by simp)
      | write room =>
          by_cases hroom : room < text.length
          · have hsave : Config.save crates (.write room) config file =
                (.err (.io .other), some (text.take room)) := by
              simp [Config.save, htext, hroom]
            rw [failedSaveKeepsFile_of_err hsave]
            simp [hroom]
          · have hsave : Config.save crates (.write room) config file = (.ok (), some text) := by
              simp [Config.save, htext, hroom]
            exact iff_of_true (failedSaveKeepsFile_of_ok hsave) (by simp [hroom])

/-- The disk is full when a second key is saved, and the first one is gone. -/
theorem failed_save_destroys_keys :
    ¬ FailedSaveKeepsFile Reference.crates (.write 0)
      { keys := [smallPair smallKey "a", smallPair { smallKey with e := 7 } "b"] }
      (some (Reference.textOf [smallPair smallKey "a"])) := by
  have hbefore : loadConfig Reference.crates .none
      (some (Reference.textOf [smallPair smallKey "a"])) =
        .ok { keys := [smallPair smallKey "a"] } := by
    rw [loadConfig_saved Reference.lawful (Reference.saved_textOf _), if_pos (by decide)]
  intro h
  obtain ⟨-, hload⟩ := h (.io .other) (by decide +kernel)
  have hafter := hload .none
  rw [hbefore] at hafter
  exact absurd (congrArg Outcome.toOption hafter) (by decide +kernel)

end SshKeys
