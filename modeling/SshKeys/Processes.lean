import SshKeys.Persistence

/-!
# Other processes at the configuration file

One serving agent and any number of further invocations of the program, all on one configuration
file. Every invocation, whatever its subcommand, first loads the configuration and then saves it
again (`main`), and nothing keeps the agent from storing a key in between. The second agent is told
that one is running only after that.

Loads and saves are atomic and succeed here. `acked_keys_stay_iff` says which interleavings keep
every acknowledged key in the file.
-/

set_option autoImplicit false

namespace SshKeys

open Lib Lib.FirstWins

/-- The id of a process that runs the program. -/
abbrev ProcessId := Nat

/-- An invocation of the program, as far as it is at the file. -/
inductive Invocation where
  /-- It has loaded `config`; `stale` records whether the agent has stored a key since. -/
  | loaded (config : Config) (stale : Bool)
  | done
  deriving DecidableEq

/-- The agent, the further invocations, and the keys that the agent has acknowledged. -/
structure Processes where
  world : World
  invocations : ProcessId → Option Invocation
  acked : List PublicKey

/-- A step of the agent, or of a further invocation. -/
inductive ProcessAct where
  | request (call : Call)
  /-- `load_config()` -/
  | load (pid : ProcessId)
  /-- `config.save()` -/
  | save (pid : ProcessId)

/-- The agent has stored a key. -/
def Invocation.outdate : Invocation → Invocation
  | .loaded config _ => .loaded config true
  | .done => .done

/-- The public key of an addition that is acknowledged. -/
def ackedBy (buf reply : Bytes) : List PublicKey :=
  if reply = [sshAgentSuccess] then (addedBy buf).toList.map KeyPair.publicKey else []

/-- A request is handled and answered; saves that fail are left out. -/
def Processes.request (crates : Crates) (s : Processes) (call : Call) : Option Processes :=
  match Agent.handleRequest crates call.buf call.info s.world with
  | ⟨.ok reply, w, events⟩ =>
      if .save false ∈ events then none
      else
        some {
          world := w
          invocations := fun pid =>
            if .save true ∈ events then (s.invocations pid).map Invocation.outdate
            else s.invocations pid
          acked := s.acked ++ ackedBy call.buf reply }
  | _ => none

/-- The invocation `pid` has come to `invocation`. -/
def Processes.advance (s : Processes) (pid : ProcessId) (invocation : Invocation) : Processes :=
  { s with invocations := Function.update s.invocations pid (some invocation) }

/-- An invocation whose load fails ends there. -/
def Processes.load (crates : Crates) (s : Processes) (pid : ProcessId) : Option Processes :=
  match s.invocations pid with
  | some _ => none
  | none =>
      match loadConfig crates .none s.world.file with
      | .ok config => some (s.advance pid (.loaded config false))
      | _ => some (s.advance pid .done)

/-- An invocation saves what it loaded, whatever the file holds by now. -/
def Processes.save (crates : Crates) (s : Processes) (pid : ProcessId) : Option Processes :=
  match s.invocations pid with
  | some (.loaded config _) =>
      match Config.save crates .none config s.world.file with
      | (.ok (), file) => some { s.advance pid .done with world := { s.world with file } }
      | _ => none
  | _ => none

/-- The agent and the invocations, interleaved. A load or a save is one step. -/
def processMachine (crates : Crates) : Machine Processes ProcessAct where
  step s act :=
    match act with
    | .request call => s.request crates call
    | .load pid => s.load crates pid
    | .save pid => s.save crates pid

/-- A serving agent, before any further invocation. -/
def Processes.start (w : World) : Processes where
  world := w
  invocations _ := none
  acked := []

/-- Every acknowledged key is in the file. -/
def AckedInFile (crates : Crates) (s : Processes) : Prop :=
  ∀ k ∈ s.acked, k ∈ fileKeys crates s.world.file

instance (crates : Crates) : DecidablePred (AckedInFile crates) := fun s =>
  inferInstanceAs (Decidable (∀ k ∈ s.acked, k ∈ fileKeys crates s.world.file))

/-- The agent has stored a key since the invocation loaded. -/
def Processes.staleAt (s : Processes) (pid : ProcessId) : Bool :=
  match s.invocations pid with
  | some (.loaded _ stale) => stale
  | _ => false

/-- No invocation saves what it loaded before the agent stored a further key. -/
def SavesFresh (s : Processes) : ProcessAct → Prop
  | .save pid => s.staleAt pid = false
  | _ => True

instance (s : Processes) : DecidablePred (SavesFresh s)
  | .save pid => inferInstanceAs (Decidable (s.staleAt pid = false))
  | .request _ => isTrue trivial
  | .load _ => isTrue trivial

/-- What holds as long as only fresh configurations are saved. -/
structure Processes.Agree (crates : Crates) (s : Processes) : Prop where
  file : fileKeys crates s.world.file = s.world.publicKeys
  acked : ∀ k ∈ s.acked, k ∈ s.world.publicKeys
  fresh : ∀ pid config, s.invocations pid = some (.loaded config false) →
    config.keys.map KeyPair.publicKey = s.world.publicKeys
  /-- A stale configuration lacks an acknowledged key. -/
  stale : ∀ pid config, s.invocations pid = some (.loaded config true) →
    ∃ k ∈ s.acked, k ∉ config.keys.map KeyPair.publicKey

theorem mem_ackedBy {buf reply : Bytes} {k : PublicKey} (h : k ∈ ackedBy buf reply) :
    ∃ keyPair, addedBy buf = some keyPair ∧ keyPair.publicKey = k := by
  rw [ackedBy] at h
  split at h
  · obtain ⟨keyPair, hk, hkey⟩ := List.mem_map.1 h
    exact ⟨keyPair, Option.mem_toList.1 hk, hkey⟩
  · cases h

/-- The process after the agent has stored and acknowledged a key: what others loaded is stale. -/
def Processes.store (crates : Crates) (s : Processes) (keyPair : KeyPair) : Processes where
  world := s.world.store crates keyPair
  invocations pid := (s.invocations pid).map Invocation.outdate
  acked := s.acked ++ [keyPair.publicKey]

/-- What a request does: it stores a new key, or it leaves the list and the file as they are. -/
theorem request_cases {crates : Crates} {s s' : Processes} {call : Call}
    (h : s.request crates call = some s') :
    (∃ keyPair, keyPair.publicKey ∉ s.world.publicKeys ∧ s.world.SaveOk crates keyPair ∧
      s' = s.store crates keyPair) ∨
    (s'.world.config = s.world.config ∧ s'.world.file = s.world.file ∧
      s'.invocations = s.invocations ∧
      ∃ more, s'.acked = s.acked ++ more ∧ ∀ k ∈ more, k ∈ s.world.publicKeys) := by
  rw [Processes.request] at h
  split at h
  next reply w events hrequest =>
    rw [Option.ite_none_left_eq_some, Option.some.injEq] at h
    obtain ⟨hsaves, rfl⟩ := h
    rcases saves_or_untouched hrequest hsaves with ⟨keyPair, hadd, hnew, hsave, rfl, rfl, hsaved⟩ |
      ⟨hpresent, hconfig, hfile, hsaved⟩
    · refine Or.inl ⟨keyPair, hnew, hsave, ?_⟩
      simp [Processes.store, ackedBy, hadd, hsaved]
    · refine Or.inr ⟨hconfig, hfile, by simp [hsaved], ackedBy call.buf reply, rfl, ?_⟩
      intro k hk
      obtain ⟨keyPair, hadd, rfl⟩ := mem_ackedBy hk
      exact hpresent keyPair hadd
  · cases h

section Lawful

variable {crates : Crates} (hl : crates.Lawful) {s s' : Processes}

include hl

theorem agree_store {keyPair : KeyPair} (hs : s.Agree crates)
    (hnew : keyPair.publicKey ∉ s.world.publicKeys) (hsave : s.world.SaveOk crates keyPair) :
    (s.store crates keyPair).Agree crates := by
  have hkeys : (s.store crates keyPair).world.publicKeys =
      s.world.publicKeys ++ [keyPair.publicKey] := by
    simp [Processes.store, World.publicKeys, World.store]
  constructor
  · rw [hkeys]
    exact fileKeys_saved_of_saveOk hl hsave
  · intro k hk
    rw [hkeys]
    rcases List.mem_append.1 hk with hk | hk
    · exact List.mem_append_left _ (hs.acked k hk)
    · exact List.mem_append_right _ hk
  · intro pid config hpid
    obtain ⟨invocation, -, hout⟩ := Option.map_eq_some_iff.1 hpid
    cases invocation <;> simp [Invocation.outdate] at hout
  · intro pid config hpid
    obtain ⟨invocation, hold, hout⟩ := Option.map_eq_some_iff.1 hpid
    cases invocation with
    | done => simp [Invocation.outdate] at hout
    | loaded config' stale =>
        simp only [Invocation.outdate, Invocation.loaded.injEq, and_true] at hout
        subst hout
        -- what was stale lacks a key already; what was fresh lacks the new one
        cases stale with
        | true =>
            obtain ⟨k, hk, hlacks⟩ := hs.stale pid config' hold
            exact ⟨k, List.mem_append_left _ hk, hlacks⟩
        | false =>
            refine ⟨keyPair.publicKey, List.mem_append_right _ List.mem_cons_self, ?_⟩
            rw [hs.fresh pid config' hold]
            exact hnew

theorem agree_request {call : Call} (hs : s.Agree crates)
    (h : s.request crates call = some s') : s'.Agree crates := by
  rcases request_cases h with ⟨keyPair, hnew, hsave, rfl⟩ |
    ⟨hconfig, hfile, hinv, more, hacked, hmore⟩
  · exact agree_store hl hs hnew hsave
  · have hkeys : s'.world.publicKeys = s.world.publicKeys := by
      rw [World.publicKeys, World.publicKeys, hconfig]
    constructor
    · rw [hkeys, hfile]
      exact hs.file
    · intro k hk
      rw [hacked] at hk
      rw [hkeys]
      exact (List.mem_append.1 hk).elim (hs.acked k) (hmore k)
    · intro pid config hpid
      rw [hkeys]
      exact hs.fresh pid config (hinv ▸ hpid)
    · intro pid config hpid
      obtain ⟨k, hk, hlacks⟩ := hs.stale pid config (hinv ▸ hpid)
      exact ⟨k, hacked ▸ List.mem_append_left _ hk, hlacks⟩

omit hl in
theorem advance_eq_some {pid pid' : ProcessId} {invocation invocation' : Invocation}
    (h : (s.advance pid invocation).invocations pid' = some invocation') :
    invocation = invocation' ∨ s.invocations pid' = some invocation' := by
  have h' : Function.update s.invocations pid (some invocation) pid' = some invocation' := h
  by_cases hp : pid' = pid
  · subst hp
    rw [Function.update_self] at h'
    exact Or.inl (Option.some.inj h')
  · rw [Function.update_of_ne hp] at h'
    exact Or.inr h'

omit hl in
theorem agree_advance (hs : s.Agree crates) (pid : ProcessId) (invocation : Invocation)
    (hfresh : ∀ config, invocation = .loaded config false →
      config.keys.map KeyPair.publicKey = s.world.publicKeys)
    (hstale : ∀ config, invocation ≠ .loaded config true) :
    (s.advance pid invocation).Agree crates where
  file := hs.file
  acked := hs.acked
  fresh pid' config h := (advance_eq_some h).elim (hfresh config) (hs.fresh pid' config)
  stale pid' config h :=
    (advance_eq_some h).elim (fun heq => absurd heq (hstale config)) (hs.stale pid' config)

omit hl in
theorem agree_load {pid : ProcessId} (hs : s.Agree crates)
    (h : s.load crates pid = some s') : s'.Agree crates := by
  rw [Processes.load] at h
  cases hpid : s.invocations pid with
  | some invocation => simp [hpid] at h
  | none =>
      rw [hpid] at h
      cases hload : loadConfig crates .none s.world.file with
      | ok config =>
          simp only [hload, Option.some.injEq] at h
          subst h
          refine agree_advance hs pid _ ?_ (by simp)
          intro config' heq
          simp only [Invocation.loaded.injEq, and_true] at heq
          rw [← heq, ← fileKeys_of_loadConfig hload, hs.file]
      | err e =>
          simp only [hload, Option.some.injEq] at h
          subst h
          exact agree_advance hs pid _ (by simp) (by simp)
      | panic =>
          simp only [hload, Option.some.injEq] at h
          subst h
          exact agree_advance hs pid _ (by simp) (by simp)

/-- What a save of a loaded configuration leaves in the file. -/
theorem fileKeys_of_saveInvocation {pid : ProcessId} (h : s.save crates pid = some s') :
    ∃ config stale file, s.invocations pid = some (.loaded config stale) ∧
      fileKeys crates file = config.keys.map KeyPair.publicKey ∧
      s' = { s.advance pid .done with world := { s.world with file } } := by
  rw [Processes.save] at h
  cases hpid : s.invocations pid with
  | none => simp [hpid] at h
  | some invocation =>
      cases invocation with
      | done => simp [hpid] at h
      | loaded config stale =>
          rw [hpid] at h
          simp only at h
          split at h
          · next file hsave =>
              simp only [Option.some.injEq] at h
              have hok : (Config.save crates .none config s.world.file).1 = .ok () := by
                rw [hsave]
              obtain ⟨bytes, hbytes, hsaved⟩ := saved_of_save hok
              rw [hsave] at hbytes
              refine ⟨config, stale, file, rfl, ?_, h.symm⟩
              rw [show file = some bytes from hbytes]
              exact fileKeys_saved hl hsaved
          · cases h

/-- A save keeps the acknowledged keys exactly when what it saves is fresh. -/
theorem acked_save_iff {pid : ProcessId} (hs : s.Agree crates) (h : s.save crates pid = some s') :
    AckedInFile crates s' ↔ s.staleAt pid = false := by
  obtain ⟨config, stale, file, hpid, hfile, rfl⟩ := fileKeys_of_saveInvocation hl h
  have hstale : s.staleAt pid = stale := by rw [Processes.staleAt, hpid]
  rw [hstale]
  cases stale with
  -- the file loses the acknowledged key that the configuration lacks
  | true =>
      obtain ⟨k, hk, hlacks⟩ := hs.stale pid config hpid
      simp only [Bool.true_eq_false, iff_false]
      intro hacked
      exact hlacks (hfile ▸ hacked k hk)
  | false =>
      simp only [iff_true]
      intro k hk
      show k ∈ fileKeys crates file
      rw [hfile, hs.fresh pid config hpid]
      exact hs.acked k hk

theorem agree_save {pid : ProcessId} (hs : s.Agree crates) (hfresh : s.staleAt pid = false)
    (h : s.save crates pid = some s') : s'.Agree crates := by
  obtain ⟨config, stale, file, hpid, hfile, rfl⟩ := fileKeys_of_saveInvocation hl h
  have hstale : stale = false := by rwa [Processes.staleAt, hpid] at hfresh
  subst hstale
  have hupdated := agree_advance hs pid .done (by simp) (by simp)
  exact ⟨hfile.trans (hs.fresh pid config hpid), hupdated.acked, hupdated.fresh, hupdated.stale⟩

omit hl in
theorem acked_of_agree (hs : s.Agree crates) : AckedInFile crates s := by
  intro k hk
  rw [hs.file]
  exact hs.acked k hk

omit hl in
theorem agree_start {w : World} (h : loadConfig crates .none w.file = .ok w.config) :
    (Processes.start w).Agree crates where
  file := fileKeys_of_loadConfig h
  acked k hk := by cases hk
  fresh pid config h := by cases h
  stale pid config h := by cases h

/-- **Acknowledged keys and other processes.** From a state where file and list agree, every
acknowledged key is in the file at every moment of a run exactly when no invocation saves a
configuration that it loaded before the agent stored a further key. -/
theorem acked_keys_stay_iff (w : World) (hagree : loadConfig crates .none w.file = .ok w.config)
    (acts : List ProcessAct) :
    (processMachine crates).AllStates (AckedInFile crates) (Processes.start w) acts ↔
      (processMachine crates).AllSteps SavesFresh (Processes.start w) acts := by
  -- only a save of another invocation can lose a key, so only its condition is not trivial
  refine Machine.allStates_iff_allSteps (J := Processes.Agree crates) ?_ ?_ acts
    (agree_start hagree) (acked_of_agree (agree_start hagree))
  · intro s act s' hs _ hfresh hstep
    cases act with
    | request call => exact agree_request hl hs hstep
    | load pid => exact agree_load hs hstep
    | save pid => exact agree_save hl hs hfresh hstep
  · intro s act s' hs _ hstep
    cases act with
    | request call => exact iff_of_true (acked_of_agree (agree_request hl hs hstep)) trivial
    | load pid => exact iff_of_true (acked_of_agree (agree_load hs hstep)) trivial
    | save pid => exact acked_save_iff hl hs hstep

end Lawful

/-- A second invocation loads and saves, and a key is added afterwards. -/
theorem acked_keys_stay_small :
    (processMachine Reference.crates).AllStates (AckedInFile Reference.crates)
      (Processes.start (emptyWorld true .none))
      [.load 0, .save 0, .request ⟨⟨"Pipe", none⟩, addIdentityRequest smallKey "a"⟩] :=
  (acked_keys_stay_iff Reference.lawful (emptyWorld true .none) rfl _).2 (by decide +kernel)

/-- A key is added between the load and the save of a second invocation. -/
theorem acked_key_is_overwritten :
    ¬ (processMachine Reference.crates).AllStates (AckedInFile Reference.crates)
      (Processes.start (emptyWorld true .none))
      [.load 0, .request ⟨⟨"Pipe", none⟩, addIdentityRequest smallKey "a"⟩, .save 0] := by
  decide +kernel

end SshKeys
