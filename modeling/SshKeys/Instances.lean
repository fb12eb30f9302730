import SshKeys.Processes

/-!
# The agents that follow one another

Any number of invocations of the program in one logon session, from the load of the configuration
to the end of the process. Each loads the file and saves it again before it asks, with a mutex that
has the program's name, whether an agent is running (`main`, and `serve` of `platform/win/mod.rs`).
The mutex is there as long as some process has a handle of it, one that was refused included. So no
two agents serve at one time (`serves_alone`), but what an agent serves was loaded before that was
sure.

Loads and saves are atomic. A load can fail, and a save can fail to open the file; a save that has
opened it gets to its end. `kept_keys_are_served_iff` says which interleavings keep every key in the
file and in the list of the agent that serves.
-/

set_option autoImplicit false

namespace SshKeys

open Lib

/-! ## Invocations -/

/-- Where an invocation is. `stale` records whether an agent has stored a key since it loaded. -/
inductive InstancePhase where
  /-- Before `config.save()`. -/
  | loaded (config : Config) (stale : Bool)
  /-- Before `CreateMutexA`. -/
  | saved (config : Config) (stale : Bool)
  | serving (config : Config)
  /-- `serve` has returned that an agent is running. -/
  | refused
  | ended
  deriving DecidableEq

/-- The file, the invocations, and what keys there have been. -/
structure Instances where
  file : Option Bytes
  phases : ProcessId → Option InstancePhase
  /-- The processes that have a handle of the mutex. -/
  handles : List ProcessId
  /-- The keys of the first file, and those that have been acknowledged since. -/
  kept : List PublicKey

/-- A step of an invocation. `opens` says whether a save can open the file. -/
inductive InstanceAct where
  /-- `load_config()` -/
  | load (pid : ProcessId) (fault : LoadFault)
  /-- `config.save()` in `main`. -/
  | save (pid : ProcessId) (opens : Bool)
  /-- `CreateMutexA` in `serve`. -/
  | serve (pid : ProcessId)
  /-- A request to the agent `pid`, with the answers that the user will give. -/
  | request (pid : ProcessId) (call : Call) (confirms : Stream' Bool) (opens : Bool)
  /-- The tray command. -/
  | reload (pid : ProcessId) (fault : LoadFault)
  /-- The process ends, and its handles are closed. -/
  | exit (pid : ProcessId)

/-- What befalls a save. -/
def saveFault (opens : Bool) : SaveFault := if opens then .none else .create

/-- An agent has stored a key. -/
def InstancePhase.outdate : InstancePhase → InstancePhase
  | .loaded config _ => .loaded config true
  | .saved config _ => .saved config true
  | phase => phase

/-- The list of an agent that serves. -/
def InstancePhase.served : InstancePhase → Option Config
  | .serving config => some config
  | _ => none

namespace Instances

/-- No process, and a file. -/
def start (crates : Crates) (file : Option Bytes) : Instances where
  file := file
  phases _ := none
  handles := []
  kept := fileKeys crates file

/-- The invocation `pid` has come to `phase`. -/
def advance (s : Instances) (pid : ProcessId) (phase : InstancePhase) : Instances :=
  { s with phases := Function.update s.phases pid (some phase) }

/-- An invocation whose load fails ends there. No two invocations have one id. -/
def load (crates : Crates) (s : Instances) (pid : ProcessId) (fault : LoadFault) :
    Option Instances :=
  match s.phases pid with
  | some _ => none
  | none =>
      match loadConfig crates fault s.file with
      | .ok config => some (s.advance pid (.loaded config false))
      | _ => some (s.advance pid .ended)

/-- An invocation that cannot open the file for its save ends there, too. -/
def save (crates : Crates) (s : Instances) (pid : ProcessId) (opens : Bool) : Option Instances :=
  match s.phases pid with
  | some (.loaded config stale) =>
      match Config.save crates (saveFault opens) config s.file with
      | (.ok (), file) => some { s.advance pid (.saved config stale) with file }
      -- a save that fails although it has opened the file is left out
      | _ => if opens then none else some (s.advance pid .ended)
  | _ => none

/-- The mutex is made, or it is there already. Both give a handle. -/
def serve (s : Instances) (pid : ProcessId) : Option Instances :=
  match s.phases pid with
  | some (.saved config _) =>
      if s.handles = [] then some { s.advance pid (.serving config) with handles := [pid] }
      else some { s.advance pid .refused with handles := pid :: s.handles }
  | _ => none

/-- An agent with the list `config`, in front of the file. -/
def world (s : Instances) (config : Config) (confirms : Stream' Bool) (opens : Bool) : World where
  config := config
  file := s.file
  confirms := confirms
  saves := Stream'.const (saveFault opens)

/-- A request is handled and answered. -/
def request (crates : Crates) (s : Instances) (pid : ProcessId) (call : Call)
    (confirms : Stream' Bool) (opens : Bool) : Option Instances :=
  match s.phases pid with
  | some (.serving config) =>
      match Agent.handleRequest crates call.buf call.info (s.world config confirms opens) with
      | ⟨.ok reply, w, events⟩ =>
          if opens ∧ .save false ∈ events then none
          else
            some {
              file := w.file
              phases := Function.update
                (fun pid' =>
                  if .save true ∈ events then (s.phases pid').map InstancePhase.outdate
                  else s.phases pid') pid (some (.serving w.config))
              handles := s.handles
              kept := s.kept ++ ackedBy call.buf reply }
      | _ => none
  | _ => none

/-- A reload that fails leaves the list. -/
def reload (crates : Crates) (s : Instances) (pid : ProcessId) (fault : LoadFault) :
    Option Instances :=
  match s.phases pid with
  | some (.serving config) =>
      some (s.advance pid (.serving (config.reload crates fault s.file).2))
  | _ => none

/-- A process that runs can end at any moment. -/
def exit (s : Instances) (pid : ProcessId) : Option Instances :=
  match s.phases pid with
  | none => none
  | some .ended => none
  | some _ => some { s.advance pid .ended with handles := s.handles.filter fun p => p ≠ pid }

end Instances

/-- The invocations, interleaved. -/
def instanceMachine (crates : Crates) : Machine Instances InstanceAct where
  step s act :=
    match act with
    | .load pid fault => s.load crates pid fault
    | .save pid opens => s.save crates pid opens
    | .serve pid => s.serve pid
    | .request pid call confirms opens => s.request crates pid call confirms opens
    | .reload pid fault => s.reload crates pid fault
    | .exit pid => s.exit pid

/-- An agent has stored a key since the invocation loaded. -/
def Instances.staleAt (s : Instances) (pid : ProcessId) : Bool :=
  match s.phases pid with
  | some (.loaded _ stale) => stale
  | some (.saved _ stale) => stale
  | _ => false

/-- The list of an agent has a key that a request adds, and the file does not: the save of an
earlier addition of it could not open the file. -/
def AcksUnsaved (crates : Crates) (s : Instances) (pid : ProcessId) (call : Call) : Prop :=
  ∃ keyPair ∈ addedBy call.buf, keyPair.publicKey ∉ fileKeys crates s.file ∧
    ∃ config ∈ s.phases pid >>= InstancePhase.served,
      keyPair.publicKey ∈ config.keys.map KeyPair.publicKey

/-- No invocation saves, or begins to serve, what it loaded before an agent stored a further key,
and no addition is acknowledged for the list of the agent alone. -/
def ActsFresh (crates : Crates) (s : Instances) : InstanceAct → Prop
  | .save pid opens => opens = true → s.staleAt pid = false
  | .serve pid => s.handles = [] → s.staleAt pid = false
  | .request pid call _ _ => ¬ AcksUnsaved crates s pid call
  | _ => True

instance (crates : Crates) (s : Instances) (pid : ProcessId) (call : Call) :
    Decidable (AcksUnsaved crates s pid call) :=
  inferInstanceAs (Decidable (∃ keyPair ∈ addedBy call.buf, _ ∧
    ∃ config ∈ s.phases pid >>= InstancePhase.served, _))

instance (crates : Crates) (s : Instances) : DecidablePred (ActsFresh crates s)
  | .save pid opens => inferInstanceAs (Decidable (opens = true → s.staleAt pid = false))
  | .serve pid => inferInstanceAs (Decidable (s.handles = [] → s.staleAt pid = false))
  | .request pid call _ _ => inferInstanceAs (Decidable (¬ AcksUnsaved crates s pid call))
  | .load _ _ => isTrue trivial
  | .reload _ _ => isTrue trivial
  | .exit _ => isTrue trivial

/-- The file has every key, and so has the agent that serves. -/
structure AllKept (crates : Crates) (s : Instances) : Prop where
  file : ∀ k ∈ s.kept, k ∈ fileKeys crates s.file
  agent : ∀ pid config, s.phases pid = some (.serving config) →
    ∀ k ∈ s.kept, k ∈ config.keys.map KeyPair.publicKey

/-! ## Steps -/

/-- What an action can do. -/
inductive Moves (crates : Crates) (s : Instances) : InstanceAct → Instances → Prop where
  | loads {pid : ProcessId} {fault : LoadFault} {config : Config} (hpid : s.phases pid = none)
      (hload : loadConfig crates .none s.file = .ok config) :
      Moves crates s (.load pid fault) (s.advance pid (.loaded config false))
  | loadsNothing {pid : ProcessId} {fault : LoadFault} (hpid : s.phases pid = none) :
      Moves crates s (.load pid fault) (s.advance pid .ended)
  | saves {pid : ProcessId} {config : Config} {stale : Bool} {file : Option Bytes}
      (hpid : s.phases pid = some (.loaded config stale))
      (hfile : fileKeys crates file = config.keys.map KeyPair.publicKey) :
      Moves crates s (.save pid true) { s.advance pid (.saved config stale) with file }
  | savesNothing {pid : ProcessId} {config : Config} {stale : Bool}
      (hpid : s.phases pid = some (.loaded config stale)) :
      Moves crates s (.save pid false) (s.advance pid .ended)
  | serves {pid : ProcessId} {config : Config} {stale : Bool}
      (hpid : s.phases pid = some (.saved config stale)) (hfree : s.handles = []) :
      Moves crates s (.serve pid) { s.advance pid (.serving config) with handles := [pid] }
  | refused {pid : ProcessId} {config : Config} {stale : Bool}
      (hpid : s.phases pid = some (.saved config stale)) (htaken : s.handles ≠ []) :
      Moves crates s (.serve pid) { s.advance pid .refused with handles := pid :: s.handles }
  | stores {pid : ProcessId} {call : Call} {confirms : Stream' Bool} {config : Config}
      {keyPair : KeyPair} {file : Option Bytes} (hpid : s.phases pid = some (.serving config))
      (hadd : addedBy call.buf = some keyPair)
      (hnew : keyPair.publicKey ∉ config.keys.map KeyPair.publicKey)
      (hfile : fileKeys crates file =
        config.keys.map KeyPair.publicKey ++ [keyPair.publicKey]) :
      Moves crates s (.request pid call confirms true) {
        file
        phases := Function.update (fun pid' => (s.phases pid').map InstancePhase.outdate) pid
          (some (.serving { keys := config.keys ++ [keyPair] }))
        handles := s.handles
        kept := s.kept ++ [keyPair.publicKey] }
  /-- The key is in the list only, and the addition is refused. -/
  | storesUnsaved {pid : ProcessId} {call : Call} {confirms : Stream' Bool} {config : Config}
      {keyPair : KeyPair} (hpid : s.phases pid = some (.serving config))
      (hadd : addedBy call.buf = some keyPair)
      (hnew : keyPair.publicKey ∉ config.keys.map KeyPair.publicKey) :
      Moves crates s (.request pid call confirms false)
        (s.advance pid (.serving { keys := config.keys ++ [keyPair] }))
  | answers {pid : ProcessId} {call : Call} {confirms : Stream' Bool} {opens : Bool}
      {config : Config} (hpid : s.phases pid = some (.serving config))
      (hpresent : ∀ keyPair, addedBy call.buf = some keyPair →
        keyPair.publicKey ∈ config.keys.map KeyPair.publicKey) :
      Moves crates s (.request pid call confirms opens) {
        s.advance pid (.serving config) with
        kept := s.kept ++ (addedBy call.buf).toList.map KeyPair.publicKey }
  | reloads {pid : ProcessId} {fault : LoadFault} {config config' : Config}
      (hpid : s.phases pid = some (.serving config))
      (hreload : config' = config ∨ loadConfig crates .none s.file = .ok config') :
      Moves crates s (.reload pid fault) (s.advance pid (.serving config'))
  | exits {pid : ProcessId} :
      Moves crates s (.exit pid)
        { s.advance pid .ended with handles := s.handles.filter fun p => p ≠ pid }

section Lawful

variable {crates : Crates} (hl : crates.Lawful) {s s' : Instances}

include hl

theorem moves_save {pid : ProcessId} {opens : Bool} (h : s.save crates pid opens = some s') :
    Moves crates s (.save pid opens) s' := by
  rw [Instances.save] at h
  split at h
  · next config stale hpid =>
      cases opens with
      | false =>
          cases h
          exact .savesNothing hpid
      | true =>
          split at h
          · next file hsave =>
              have hok : (Config.save crates (saveFault true) config s.file).1 = .ok () := by
                rw [hsave]
              obtain ⟨bytes, hbytes, hsaved⟩ := saved_of_save hok
              rw [hsave] at hbytes
              cases hbytes
              cases h
              exact .saves hpid (fileKeys_saved hl hsaved)
          · cases h
  · cases h

theorem moves_request {pid : ProcessId} {call : Call} {confirms : Stream' Bool} {opens : Bool}
    (h : s.request crates pid call confirms opens = some s') :
    Moves crates s (.request pid call confirms opens) s' := by
  rw [Instances.request] at h
  split at h
  · next config hpid =>
      split at h
      · next reply w events hrequest =>
          rw [Option.ite_none_left_eq_some, Option.some.injEq] at h
          obtain ⟨hsaves, rfl⟩ := h
          rcases answered_stores_or_untouched hrequest with
            ⟨keyPair, hadd, hnew, hreply, hworld, hevents⟩ | ⟨hack, hconfig, hfile, hevents⟩
          · cases opens with
            | true =>
                have hsave : (s.world config confirms true).SaveOk crates keyPair := by
                  by_contra hfail
                  exact hsaves ⟨rfl, (hevents false).2 (decide_eq_false hfail).symm⟩
                have hsaved : .save true ∈ events :=
                  (hevents true).2 (decide_eq_true hsave).symm
                rw [if_pos hsave] at hreply
                have hkept : ackedBy call.buf reply = [keyPair.publicKey] := by
                  simp [ackedBy, hadd, hreply]
                simp only [if_pos hsaved, hkept, hworld]
                exact .stores hpid hadd hnew (fileKeys_saved_of_saveOk hl hsave)
            | false =>
                -- the file cannot be opened
                have hsave : ¬ (s.world config confirms false).SaveOk crates keyPair := by
                  intro hsave
                  cases hsave
                have hsaved : .save true ∉ events := by
                  rw [hevents true, decide_eq_false hsave]
                  exact fun h => Bool.false_ne_true h.symm
                rw [if_neg hsave] at hreply
                have hkept : ackedBy call.buf reply = [] := by
                  simp [ackedBy, hreply, sshAgentFailure, sshAgentSuccess]
                simp only [if_neg hsaved, hkept, hworld, List.append_nil]
                exact .storesUnsaved hpid hadd hnew
          · have hkept : ackedBy call.buf reply =
                (addedBy call.buf).toList.map KeyPair.publicKey := by
              cases hadd : addedBy call.buf with
              | none => simp [ackedBy, hadd]
              | some keyPair => simp [ackedBy, hadd, (hack keyPair hadd).2]
            simp only [if_neg (hevents true), hconfig, hfile, hkept]
            exact .answers hpid fun keyPair hadd => (hack keyPair hadd).1
      · cases h
  · cases h

/-- **Inversion** of a step. -/
theorem moves_of_instance_step {act : InstanceAct}
    (h : (instanceMachine crates).step s act = some s') :
    Moves crates s act s' := by
  cases act with
  | load pid fault =>
      simp only [instanceMachine, Instances.load] at h
      split at h
      · cases h
      · next hpid =>
          split at h
          · next config hload =>
              cases h
              exact .loads hpid (loadConfig_of_fault hload)
          · cases h
            exact .loadsNothing hpid
  | save pid opens => exact moves_save hl h
  | serve pid =>
      simp only [instanceMachine, Instances.serve] at h
      split at h
      · next config stale hpid =>
          by_cases hfree : s.handles = []
          · rw [if_pos hfree] at h
            cases h
            exact .serves hpid hfree
          · rw [if_neg hfree] at h
            cases h
            exact .refused hpid hfree
      · cases h
  | request pid call confirms opens => exact moves_request hl h
  | reload pid fault =>
      simp only [instanceMachine, Instances.reload] at h
      split at h
      · next config hpid =>
          cases h
          apply Moves.reloads hpid
          rw [Config.reload]
          cases hload : loadConfig crates fault s.file with
          | ok config' => exact Or.inr (loadConfig_of_fault hload)
          | err e => exact Or.inl rfl
          | panic => exact Or.inl rfl
      · cases h
  | exit pid =>
      simp only [instanceMachine, Instances.exit] at h
      split at h
      · cases h
      · cases h
      · cases h
        exact .exits

end Lawful

/-! ## One agent -/

/-- An agent has a handle, and no other serves. -/
structure Instances.Alone (s : Instances) : Prop where
  handle : ∀ pid config, s.phases pid = some (.serving config) → pid ∈ s.handles
  one : ∀ pid pid' config config', s.phases pid = some (.serving config) →
    s.phases pid' = some (.serving config') → pid = pid'

section Phases

variable {s : Instances}

theorem phases_update {s' : Instances} {phases : ProcessId → Option InstancePhase}
    {pid pid' : ProcessId} {phase phase' : InstancePhase} (h : s'.phases pid' = some phase')
    (hs : s'.phases = Function.update phases pid (some phase)) :
    (pid' = pid ∧ phase = phase') ∨ (pid' ≠ pid ∧ phases pid' = some phase') := by
  rw [hs] at h
  by_cases hp : pid' = pid
  · subst hp
    rw [Function.update_self] at h
    exact Or.inl ⟨rfl, Option.some.inj h⟩
  · rw [Function.update_of_ne hp] at h
    exact Or.inr ⟨hp, h⟩

theorem outdate_eq_serving {phase : Option InstancePhase} {config : Config}
    (h : phase.map InstancePhase.outdate = some (.serving config)) :
    phase = some (.serving config) := by
  obtain ⟨old, rfl, hout⟩ := Option.map_eq_some_iff.1 h
  cases old with
  | serving config' =>
      cases hout
      rfl
  | loaded config' stale => cases hout
  | saved config' stale => cases hout
  | refused => cases hout
  | ended => cases hout

/-- Agents that had their handles before, and still have them. -/
theorem Instances.Alone.of_subset {s' : Instances} (h : s.Alone)
    (hserving : ∀ pid config, s'.phases pid = some (.serving config) →
      (∃ config', s.phases pid = some (.serving config')) ∧
        (pid ∈ s.handles → pid ∈ s'.handles)) : s'.Alone := by
  refine ⟨?_, ?_⟩
  · intro pid config hpid
    obtain ⟨⟨config', hold⟩, hhandle⟩ := hserving pid config hpid
    exact hhandle (h.handle pid config' hold)
  · intro pid pid' config config' hpid hpid'
    obtain ⟨⟨old, hold⟩, -⟩ := hserving pid config hpid
    obtain ⟨⟨old', hold'⟩, -⟩ := hserving pid' config' hpid'
    exact h.one pid pid' old old' hold hold'

/-- A process that comes to another phase, and not to serve. -/
theorem alone_advance {pid : ProcessId} {phase : InstancePhase} {file : Option Bytes}
    {handles : List ProcessId} (h : s.Alone) (hphase : ∀ config, phase ≠ .serving config)
    (hhandles : ∀ p ∈ s.handles, p ≠ pid → p ∈ handles) :
    ({ s.advance pid phase with file, handles } : Instances).Alone := by
  apply h.of_subset
  intro p config hp
  rcases phases_update hp rfl with ⟨-, heq⟩ | ⟨hne, hold⟩
  · exact absurd heq (hphase config)
  · exact ⟨⟨config, hold⟩, fun hmem => hhandles p hmem hne⟩

/-- An agent that goes on with another list. -/
theorem alone_serving {pid : ProcessId} {config config' : Config} {kept : List PublicKey}
    (h : s.Alone) (hpid : s.phases pid = some (.serving config)) :
    ({ s.advance pid (.serving config') with kept } : Instances).Alone := by
  apply h.of_subset
  intro p config'' hp
  rcases phases_update hp rfl with ⟨rfl, -⟩ | ⟨-, hp⟩
  · exact ⟨⟨config, hpid⟩, id⟩
  · exact ⟨⟨config'', hp⟩, id⟩

theorem alone_moves {crates : Crates} {s' : Instances} {act : InstanceAct} (h : s.Alone)
    (hmoves : Moves crates s act s') : s'.Alone := by
  cases hmoves with
  | loads hpid hload => exact alone_advance h (by simp) (fun p hp _ => hp)
  | loadsNothing hpid => exact alone_advance h (by simp) (fun p hp _ => hp)
  | saves hpid hfile => exact alone_advance h (by simp) (fun p hp _ => hp)
  | savesNothing hpid => exact alone_advance h (by simp) (fun p hp _ => hp)
  | refused hpid htaken =>
      exact alone_advance h (by simp) (fun p hp _ => List.mem_cons_of_mem _ hp)
  | exits => exact alone_advance h (by simp) (fun p hp hne => List.mem_filter.2 ⟨hp, by simpa⟩)
  -- without a handle there is no other agent
  | @serves pid config stale hpid hfree =>
      have hold {p : ProcessId} {config' : Config}
          (hp : s.phases p = some (.serving config')) : False := by
        have hmem := h.handle p config' hp
        rw [hfree] at hmem
        cases hmem
      refine ⟨?_, ?_⟩
      · intro p config' hp
        rcases phases_update hp rfl with ⟨rfl, -⟩ | ⟨-, hp⟩
        · exact List.mem_cons_self
        · exact (hold hp).elim
      · intro p p' config' config'' hp hp'
        rcases phases_update hp rfl with ⟨rfl, -⟩ | ⟨-, hp⟩
        · rcases phases_update hp' rfl with ⟨rfl, -⟩ | ⟨-, hp'⟩
          · rfl
          · exact (hold hp').elim
        · exact (hold hp).elim
  | stores hpid hadd hnew hfile =>
      apply h.of_subset
      intro p config' hp
      rcases phases_update hp rfl with ⟨rfl, -⟩ | ⟨-, hp⟩
      · exact ⟨⟨_, hpid⟩, id⟩
      · exact ⟨⟨config', outdate_eq_serving hp⟩, id⟩
  | storesUnsaved hpid hadd hnew => exact alone_serving h hpid
  | answers hpid hpresent => exact alone_serving h hpid
  | reloads hpid hreload => exact alone_serving h hpid

end Phases

theorem alone_start (crates : Crates) (file : Option Bytes) :
    (Instances.start crates file).Alone where
  handle pid config h := by cases h
  one pid pid' config config' h := by cases h

/-- **One agent serves** at any moment. -/
theorem serves_alone {crates : Crates} (hl : crates.Lawful) {file : Option Bytes}
    {acts : List InstanceAct} {s : Instances}
    (h : (instanceMachine crates).run (Instances.start crates file) acts = some s) : s.Alone := by
  apply Machine.run_invariant (I := Instances.Alone) ?_ acts (alone_start crates file) h
  intro s act s' halone hstep
  exact alone_moves halone (moves_of_instance_step hl hstep)

/-! ## All keys -/

/-- What an invocation loaded that is up to date with the file. -/
def InstancePhase.fresh : InstancePhase → Option Config
  | .loaded config false => some config
  | .saved config false => some config
  | _ => none

/-- What an invocation has that it loaded before an agent stored a further key. -/
def InstancePhase.behind : InstancePhase → Option Config
  | .loaded config true => some config
  | .saved config true => some config
  | _ => none

theorem fresh_outdate (old : InstancePhase) : old.outdate.fresh = none := by
  cases old <;> rfl

theorem eq_serving_of_served {phase : InstancePhase} {config : Config}
    (h : phase.served = some config) : phase = .serving config := by
  cases phase with
  | serving config' =>
      cases h
      rfl
  | loaded config' stale => cases h
  | saved config' stale => cases h
  | refused => cases h
  | ended => cases h

theorem behind_or_fresh_of_outdate {old : InstancePhase} {config : Config}
    (h : old.outdate.behind = some config) :
    old.behind = some config ∨ old.fresh = some config := by
  cases old with
  | loaded config' stale =>
      cases h
      cases stale with
      | true => exact Or.inl rfl
      | false => exact Or.inr rfl
  | saved config' stale =>
      cases h
      cases stale with
      | true => exact Or.inl rfl
      | false => exact Or.inr rfl
  | serving config' => cases h
  | refused => cases h
  | ended => cases h

/-- What holds as long as all invocations act on fresh configurations. -/
structure Instances.Agree (crates : Crates) (s : Instances) : Prop where
  kept : ∀ k ∈ s.kept, k ∈ fileKeys crates s.file
  fresh : ∀ pid phase config, s.phases pid = some phase → phase.fresh = some config →
    config.keys.map KeyPair.publicKey = fileKeys crates s.file
  /-- An agent has the keys of the file, and perhaps further ones whose saves failed. -/
  served : ∀ pid phase config, s.phases pid = some phase → phase.served = some config →
    ∀ k ∈ fileKeys crates s.file, k ∈ config.keys.map KeyPair.publicKey
  /-- A stale configuration lacks a key. -/
  behind : ∀ pid phase config, s.phases pid = some phase → phase.behind = some config →
    ∃ k ∈ s.kept, k ∉ config.keys.map KeyPair.publicKey

section Agree

variable {crates : Crates} {s s' : Instances}

theorem Instances.Agree.serving (h : s.Agree crates) {pid : ProcessId} {config : Config}
    (hpid : s.phases pid = some (.serving config)) {k : PublicKey}
    (hk : k ∈ fileKeys crates s.file) : k ∈ config.keys.map KeyPair.publicKey :=
  h.served pid (.serving config) config hpid rfl k hk

theorem allKept_of_agree (h : s.Agree crates) : AllKept crates s where
  file := h.kept
  agent _ _ hpid k hk := h.serving hpid (h.kept k hk)

/-- One process comes to another phase, and the keys in the file stay. -/
theorem agree_phase {pid : ProcessId} {phase : InstancePhase} {file : Option Bytes}
    {handles : List ProcessId} {kept : List PublicKey} (h : s.Agree crates)
    (hfile : fileKeys crates file = fileKeys crates s.file) (hsub : ∀ k ∈ s.kept, k ∈ kept)
    (hkept : ∀ k ∈ kept, k ∈ fileKeys crates s.file)
    (hfresh : ∀ config, phase.fresh = some config →
      config.keys.map KeyPair.publicKey = fileKeys crates s.file)
    (hserved : ∀ config, phase.served = some config →
      ∀ k ∈ fileKeys crates s.file, k ∈ config.keys.map KeyPair.publicKey)
    (hbehind : phase.behind = none) :
    ({ s.advance pid phase with file, handles, kept } : Instances).Agree crates := by
  refine ⟨?_, ?_, ?_, ?_⟩
  · intro k hk
    show k ∈ fileKeys crates file
    rw [hfile]
    exact hkept k hk
  · intro p phase' config hp hphase
    show _ = fileKeys crates file
    rw [hfile]
    rcases phases_update hp rfl with ⟨-, rfl⟩ | ⟨-, hp⟩
    · exact hfresh config hphase
    · exact h.fresh p phase' config hp hphase
  · intro p phase' config hp hphase
    show ∀ k ∈ fileKeys crates file, _
    rw [hfile]
    rcases phases_update hp rfl with ⟨-, rfl⟩ | ⟨-, hp⟩
    · exact hserved config hphase
    · exact h.served p phase' config hp hphase
  · intro p phase' config hp hphase
    rcases phases_update hp rfl with ⟨-, rfl⟩ | ⟨-, hp⟩
    · rw [hbehind] at hphase
      cases hphase
    · obtain ⟨k, hk, hlacks⟩ := h.behind p phase' config hp hphase
      exact ⟨k, hsub k hk, hlacks⟩

/-- The same where the process does not serve, and no key is acknowledged. -/
theorem agree_advance_phase {pid : ProcessId} {phase : InstancePhase} {file : Option Bytes}
    {handles : List ProcessId} (h : s.Agree crates)
    (hfile : fileKeys crates file = fileKeys crates s.file)
    (hfresh : ∀ config, phase.fresh = some config →
      config.keys.map KeyPair.publicKey = fileKeys crates s.file)
    (hserved : phase.served = none) (hbehind : phase.behind = none) :
    ({ s.advance pid phase with file, handles } : Instances).Agree crates :=
  agree_phase h hfile (fun _ hk => hk) h.kept hfresh (by simp [hserved]) hbehind

/-- The same for an agent that goes on with another list. -/
theorem agree_serving {pid : ProcessId} {config : Config} {handles : List ProcessId}
    {kept : List PublicKey} (h : s.Agree crates) (hsub : ∀ k ∈ s.kept, k ∈ kept)
    (hkept : ∀ k ∈ kept, k ∈ fileKeys crates s.file)
    (hconfig : ∀ k ∈ fileKeys crates s.file, k ∈ config.keys.map KeyPair.publicKey) :
    ({ s.advance pid (.serving config) with handles, kept } : Instances).Agree crates := by
  apply agree_phase h rfl hsub hkept (by simp [InstancePhase.fresh]) ?_ rfl
  intro config' hserved
  cases hserved
  exact hconfig

/-- After an agent has stored a key, every other invocation lacks it. -/
theorem agree_stores {pid : ProcessId} {config : Config} {keyPair : KeyPair}
    {file : Option Bytes} (halone : s.Alone) (h : s.Agree crates)
    (hpid : s.phases pid = some (.serving config))
    (hnew : keyPair.publicKey ∉ config.keys.map KeyPair.publicKey)
    (hfile : fileKeys crates file =
      config.keys.map KeyPair.publicKey ++ [keyPair.publicKey]) :
    ({
      file
      phases := Function.update (fun pid' => (s.phases pid').map InstancePhase.outdate) pid
        (some (.serving { keys := config.keys ++ [keyPair] }))
      handles := s.handles
      kept := s.kept ++ [keyPair.publicKey] } : Instances).Agree crates := by
  refine ⟨?_, ?_, ?_, ?_⟩
  · intro k hk
    show k ∈ fileKeys crates file
    rw [hfile]
    rcases List.mem_append.1 hk with hk | hk
    · exact List.mem_append_left _ (h.serving hpid (h.kept k hk))
    · exact List.mem_append_right _ hk
  · intro p phase config' hp hphase
    rcases phases_update hp rfl with ⟨-, rfl⟩ | ⟨-, hp⟩
    · cases hphase
    -- nothing is fresh any more
    · obtain ⟨old, -, rfl⟩ := Option.map_eq_some_iff.1 hp
      rw [fresh_outdate] at hphase
      cases hphase
  · intro p phase config' hp hphase k hk
    rcases phases_update hp rfl with ⟨-, rfl⟩ | ⟨hne, hp⟩
    · cases hphase
      have hk' : k ∈ fileKeys crates file := hk
      rw [hfile] at hk'
      rw [List.map_append]
      exact hk'
    -- an agent is alone
    · rw [eq_serving_of_served hphase] at hp
      exact absurd (halone.one p pid config' config (outdate_eq_serving hp) hpid) hne
  · intro p phase config' hp hphase
    rcases phases_update hp rfl with ⟨-, rfl⟩ | ⟨-, hp⟩
    · cases hphase
    · obtain ⟨old, hold, rfl⟩ := Option.map_eq_some_iff.1 hp
      -- what was behind lacks a key already, and what was fresh lacks the new one
      rcases behind_or_fresh_of_outdate hphase with hbehind | hfresh
      · obtain ⟨k, hk, hlacks⟩ := h.behind p old config' hold hbehind
        exact ⟨k, List.mem_append_left _ hk, hlacks⟩
      · refine ⟨keyPair.publicKey, List.mem_append_right _ List.mem_cons_self, ?_⟩
        rw [h.fresh p old config' hold hfresh]
        exact fun hk => hnew (h.serving hpid hk)

theorem agree_moves {act : InstanceAct} (halone : s.Alone) (h : s.Agree crates)
    (hact : ActsFresh crates s act) (hmoves : Moves crates s act s') : s'.Agree crates := by
  cases hmoves with
  | loads hpid hload =>
      apply agree_advance_phase h rfl ?_ rfl rfl
      intro config' hconfig
      cases hconfig
      exact (fileKeys_of_loadConfig hload).symm
  | loadsNothing hpid => exact agree_advance_phase h rfl (by simp [InstancePhase.fresh]) rfl rfl
  | @saves pid config stale file hpid hfile =>
      have hstale : stale = false := by
        have hfresh := hact rfl
        rw [Instances.staleAt, hpid] at hfresh
        exact hfresh
      subst hstale
      have hlist := h.fresh pid _ config hpid rfl
      apply agree_advance_phase h (hfile.trans hlist) ?_ rfl rfl
      intro config' hconfig
      cases hconfig
      exact hlist
  | savesNothing hpid => exact agree_advance_phase h rfl (by simp [InstancePhase.fresh]) rfl rfl
  | @serves pid config stale hpid hfree =>
      have hstale : stale = false := by
        have hfresh := hact hfree
        rw [Instances.staleAt, hpid] at hfresh
        exact hfresh
      subst hstale
      apply agree_serving h (fun _ hk => hk) h.kept
      rw [h.fresh pid _ config hpid rfl]
      exact fun _ hk => hk
  | refused hpid htaken => exact agree_advance_phase h rfl (by simp [InstancePhase.fresh]) rfl rfl
  | stores hpid hadd hnew hfile => exact agree_stores halone h hpid hnew hfile
  | storesUnsaved hpid hadd hnew =>
      apply agree_serving h (fun _ hk => hk) h.kept
      intro k hk
      rw [List.map_append]
      exact List.mem_append_left _ (h.serving hpid hk)
  | @answers pid call confirms opens config hpid hpresent =>
      apply agree_serving h (fun k hk => List.mem_append_left _ hk) ?_
        (fun k hk => h.serving hpid hk)
      intro k hk
      rcases List.mem_append.1 hk with hk | hk
      · exact h.kept k hk
      · obtain ⟨keyPair, hadd, rfl⟩ := List.mem_map.1 hk
        rw [Option.mem_toList] at hadd
        -- the file has what is acknowledged for the list
        by_contra hunsaved
        exact hact ⟨keyPair, hadd, hunsaved, config, by rw [hpid]; rfl, hpresent keyPair hadd⟩
  | @reloads pid fault config config' hpid hreload =>
      apply agree_serving h (fun _ hk => hk) h.kept
      intro k hk
      rcases hreload with rfl | hload
      · exact h.serving hpid hk
      · exact fileKeys_of_loadConfig hload ▸ hk
  | exits => exact agree_advance_phase h rfl (by simp [InstancePhase.fresh]) rfl rfl

/-- A key that a request adds is not acknowledged for the list if the list does not have it. -/
theorem not_acksUnsaved {pid : ProcessId} {call : Call} {config : Config} {keyPair : KeyPair}
    (hpid : s.phases pid = some (.serving config)) (hadd : addedBy call.buf = some keyPair)
    (hnew : keyPair.publicKey ∉ config.keys.map KeyPair.publicKey) :
    ¬ AcksUnsaved crates s pid call := by
  rintro ⟨keyPair', hadd', -, config', hconfig', hmem⟩
  rw [hadd, Option.mem_some_iff] at hadd'
  rw [hpid] at hconfig'
  cases hconfig'
  exact hnew (hadd' ▸ hmem)

/-- **One step** keeps all keys exactly when it acts on what the file has. -/
theorem allKept_moves_iff {act : InstanceAct} (halone : s.Alone) (h : s.Agree crates)
    (hmoves : Moves crates s act s') : AllKept crates s' ↔ ActsFresh crates s act := by
  by_cases hact : ActsFresh crates s act
  · exact iff_of_true (allKept_of_agree (agree_moves halone h hact hmoves)) hact
  · refine iff_of_false ?_ hact
    intro hkept
    cases hmoves with
    -- the file loses the key that the configuration lacks
    | @saves pid config stale file hpid hfile =>
        rw [ActsFresh, Instances.staleAt, hpid, Classical.not_imp, Bool.not_eq_false] at hact
        obtain ⟨-, rfl⟩ := hact
        obtain ⟨k, hk, hlacks⟩ := h.behind pid _ config hpid rfl
        exact hlacks (hfile ▸ hkept.file k hk)
    -- the agent does not have it
    | @serves pid config stale hpid hfree =>
        rw [ActsFresh, Instances.staleAt, hpid, Classical.not_imp, Bool.not_eq_false] at hact
        obtain ⟨-, rfl⟩ := hact
        obtain ⟨k, hk, hlacks⟩ := h.behind pid _ config hpid rfl
        exact hlacks (hkept.agent pid config (Function.update_self ..) k hk)
    -- the key is acknowledged now, and the file does not have it
    | @answers pid call confirms opens config hpid hpresent =>
        obtain ⟨keyPair, hadd, hunsaved, -⟩ := Classical.not_not.1 hact
        refine hunsaved (hkept.file keyPair.publicKey (List.mem_append_right _ ?_))
        exact List.mem_map_of_mem (Option.mem_toList.2 hadd)
    | savesNothing hpid => exact hact fun hopens => absurd hopens Bool.false_ne_true
    | refused hpid htaken => exact hact fun hfree => absurd hfree htaken
    | stores hpid hadd hnew hfile => exact hact (not_acksUnsaved hpid hadd hnew)
    | storesUnsaved hpid hadd hnew => exact hact (not_acksUnsaved hpid hadd hnew)
    | loads hpid hload => exact hact trivial
    | loadsNothing hpid => exact hact trivial
    | reloads hpid hreload => exact hact trivial
    | exits => exact hact trivial

end Agree

theorem agree_start_instances (crates : Crates) (file : Option Bytes) :
    (Instances.start crates file).Agree crates where
  kept k hk := hk
  fresh pid phase config h := by cases h
  served pid phase config h := by cases h
  behind pid phase config h := by cases h

/-- **The agents that follow one another.** In every interleaving of any number of invocations at
most one agent serves. At every moment the file and the agent that serves have all keys of the
first file and all keys acknowledged by any agent since, exactly when no invocation saves, or begins
to serve, a configuration that it loaded before an agent stored a further key, and no addition is
acknowledged of a key that the agent has without the file. -/
theorem kept_keys_are_served_iff (crates : Crates) (hl : crates.Lawful) (file : Option Bytes)
    (acts : List InstanceAct) :
    (∀ s, (instanceMachine crates).run (Instances.start crates file) acts = some s → s.Alone) ∧
      ((instanceMachine crates).AllStates (AllKept crates) (Instances.start crates file) acts ↔
        (instanceMachine crates).AllSteps (ActsFresh crates) (Instances.start crates file)
          acts) := by
  refine ⟨fun s hs => serves_alone hl hs, ?_⟩
  have hagree := agree_start_instances crates file
  refine Machine.allStates_iff_allSteps (J := fun s => s.Alone ∧ s.Agree crates) ?_ ?_ acts
    ⟨alone_start crates file, hagree⟩ (allKept_of_agree hagree)
  · rintro s act s' ⟨halone, hs⟩ - hact hstep
    have hmoves := moves_of_instance_step hl hstep
    exact ⟨alone_moves halone hmoves, agree_moves halone hs hact hmoves⟩
  · rintro s act s' ⟨halone, hs⟩ - hstep
    exact allKept_moves_iff halone hs (moves_of_instance_step hl hstep)

/-- Two agents that follow one another, with a start between them that is refused. The first agent
cannot save its second key, which ends with it. -/
def twoAgents : List InstanceAct :=
  [.load 0 .none, .save 0 true, .serve 0,
    .request 0 ⟨⟨"Pipe", none⟩, addIdentityRequest smallKey "a"⟩ (Stream'.const true) true,
    .load 1 .none, .save 1 true, .serve 1, .exit 1,
    .request 0 ⟨⟨"Unix", none⟩, addIdentityRequest { smallKey with e := 7 } "b"⟩
      (Stream'.const true) false,
    .exit 0, .load 2 .none, .save 2 true, .serve 2]

theorem kept_keys_are_served_small :
    ((instanceMachine Reference.crates).run (Instances.start Reference.crates none)
      twoAgents).isSome = true ∧
    (instanceMachine Reference.crates).AllStates (AllKept Reference.crates)
      (Instances.start Reference.crates none) twoAgents :=
  ⟨by decide +kernel,
    (kept_keys_are_served_iff Reference.crates Reference.lawful none twoAgents).2.2
      (by decide +kernel)⟩

-- the second agent has loaded and saved before the first one stores a key, and begins to serve
-- when that one has ended
example :
    ((instanceMachine Reference.crates).run (Instances.start Reference.crates none)
      [.load 0 .none, .load 1 .none, .save 0 true, .save 1 true, .serve 0,
        .request 0 ⟨⟨"Pipe", none⟩, addIdentityRequest smallKey "a"⟩ (Stream'.const true) true,
        .exit 0, .serve 1]).isSome = true ∧
    ¬ (instanceMachine Reference.crates).AllSteps (ActsFresh Reference.crates)
      (Instances.start Reference.crates none)
      [.load 0 .none, .load 1 .none, .save 0 true, .save 1 true, .serve 0,
        .request 0 ⟨⟨"Pipe", none⟩, addIdentityRequest smallKey "a"⟩ (Stream'.const true) true,
        .exit 0, .serve 1] := by
  decide +kernel

end SshKeys
