import SshKeys.Lookup
import SshKeys.Persistence

/-!
# The program from one start to the next

The program at its configuration file over its whole life, after `main`. Every start loads the file
and saves what it loaded before it serves, the agent saves its list with every new key, and a
session can end at any moment. Only the file is left of it then.

`keys_outlive_restarts` says what the next start finds at every moment of such a life: all keys, or
nothing that loads. The second is for good, because a start whose load fails leaves the file alone.
`first_key_signs` says with which of all the keys a later session signs. Other invocations while the
agent serves, and edits of the file, are in other modules.
-/

set_option autoImplicit false

namespace SshKeys

open Lib Lib.FirstWins

/-- The program over its life. Between two sessions there is nothing but the file. -/
inductive Service where
  | stopped (file : Option Bytes)
  | serving (w : World)
  /-- A request has panicked under the lock of the agent, which nothing takes any more. -/
  | poisoned (w : World)

/-- A start of the program, or what happens to it while it serves. -/
inductive ServiceAct where
  /-- `main`, with the fates of its load and of the saves of the session, and with the answers that
  the user will give in it. -/
  | start (load : LoadFault) (saves : Stream' SaveFault) (confirms : Stream' Bool)
  | request (call : Call)
  /-- The tray command. -/
  | reload (load : LoadFault)
  /-- The process ends. -/
  | stop

/-- The content of the configuration file. -/
def Service.file : Service → Option Bytes
  | .stopped file => file
  | .serving w => w.file
  | .poisoned w => w.file

/-- The agent, while the process runs. -/
def Service.agent : Service → Option World
  | .stopped _ => none
  | .serving w => some w
  | .poisoned w => some w

/-- `load_config()?` and `config.save()?` of `main`, and then `serve`. -/
def startMain (crates : Crates) (load : LoadFault) (saves : Stream' SaveFault)
    (confirms : Stream' Bool) (file : Option Bytes) : Service :=
  match loadConfig crates load file with
  | .ok config =>
      match config.save crates saves.head file with
      | (.ok (), file') => .serving { config, file := file', confirms, saves := saves.tail }
      | (_, file') => .stopped file'
  | _ => .stopped file

/-- After a panic under the lock only the end of the process follows. -/
def serviceMachine (crates : Crates) : Machine Service ServiceAct where
  step s act :=
    match s, act with
    | .stopped file, .start load saves confirms =>
        some (startMain crates load saves confirms file)
    | .serving w, .request call =>
        match Agent.handleRequest crates call.buf call.info w with
        | ⟨.ok _, w', _⟩ => some (.serving w')
        | ⟨_, w', _⟩ => some (.poisoned w')
    | .serving w, .reload load =>
        some (.serving { w with config := (w.config.reload crates load w.file).2 })
    | .serving w, .stop => some (.stopped w.file)
    | .poisoned w, .stop => some (.stopped w.file)
    | _, _ => none

/-- The key pair of an addition. -/
def ServiceAct.added : ServiceAct → Option KeyPair
  | .request call => addedBy call.buf
  | _ => none

/-- The keys that the first list and the additions of all sessions make up, each as it came
first. -/
def keysOver (keys : List KeyPair) (acts : List ServiceAct) : List KeyPair :=
  (acts.filterMap ServiceAct.added).foldl (insertNew KeyPair.publicKey) keys

/-- The save of a start succeeds or does not touch the file, and the save of a new key succeeds. -/
def SavesThrough (crates : Crates) : Service → ServiceAct → Prop
  | .stopped file, .start load saves _ =>
      match loadConfig crates load file with
      | .ok config =>
          saves.head = .create ∨ (config.save crates saves.head file).1 = .ok ()
      | _ => True
  | .serving w, .request call => ¬ UnsavedAddition crates w call.buf
  | _, _ => True

/-- What the next start will load is `keys`, or nothing if two of them have one name. -/
def Loads (crates : Crates) (file : Option Bytes) (keys : List KeyPair) : Prop :=
  loadConfig crates .none file =
    if (keys.map KeyPair.name).Nodup then .ok { keys } else .err (.crate "toml")

/-- The file and the agent have the keys. -/
structure Carried (crates : Crates) (keys : List KeyPair) (s : Service) : Prop where
  file : Loads crates s.file keys
  agent : ∀ w, s.agent = some w → w.config.keys = keys

theorem carried_of_agent {crates : Crates} {keys : List KeyPair} {s : Service} {w : World}
    (hagent : s.agent = some w) (hfile : s.file = w.file) (hloads : Loads crates w.file keys)
    (hkeys : w.config.keys = keys) : Carried crates keys s := by
  refine ⟨hfile ▸ hloads, ?_⟩
  intro w' hw'
  rw [hagent, Option.some.injEq] at hw'
  rw [← hw']
  exact hkeys

theorem carried_stopped {crates : Crates} {keys : List KeyPair} {file : Option Bytes}
    (h : Loads crates file keys) : Carried crates keys (.stopped file) :=
  ⟨h, fun w hw => by cases hw⟩

/-! ## Loads -/

theorem map_name_of_deserializeKeyPairs {ossl : Openssl} {ts : List Table} {keys : List KeyPair}
    (h : deserializeKeyPairs ossl ts = .ok keys) : keys.map KeyPair.name = ts.map Prod.fst := by
  induction ts generalizing keys with
  | nil =>
      rw [deserializeKeyPairs, Outcome.pure_eq, Outcome.ok.injEq] at h
      rw [← h]
      rfl
  | cons table ts ih =>
      rw [deserializeKeyPairs, Outcome.bind_eq_ok_iff] at h
      obtain ⟨keyPair, hkey, h⟩ := h
      obtain ⟨keys', hkeys, h⟩ := Outcome.bind_eq_ok_iff.1 h
      rw [Outcome.pure_eq, Outcome.ok.injEq] at h
      have hname : keyPair.name = table.1 := by
        rcases table with ⟨name, ⟨⟨⟩, data⟩⟩
        rw [deserializeKeyPair, Outcome.bind_eq_ok_iff] at hkey
        obtain ⟨rsa, -, hkey⟩ := hkey
        rw [Outcome.pure_eq, Outcome.ok.injEq] at hkey
        rw [← hkey]
        rfl
      rw [← h, List.map_cons, List.map_cons, hname, ih hkeys]

/-- The reader refuses a document with two tables of one name. -/
theorem nodup_name_of_loadConfig {crates : Crates} {file : Option Bytes} {config : Config}
    (h : loadConfig crates .none file = .ok config) : (config.keys.map KeyPair.name).Nodup := by
  cases file with
  | none =>
      rw [loadConfig, Outcome.ok.injEq] at h
      · rw [← h]
        exact List.nodup_nil
      · simp
  | some bytes =>
      simp only [loadConfig, Toml.fromSlice] at h
      cases hts : crates.tables bytes with
      | none => simp [hts] at h
      | some ts =>
          by_cases hn : (ts.map Prod.fst).Nodup
          · simp only [hts, if_pos hn, Outcome.ofOption_some, Outcome.ok_bind] at h
            obtain ⟨keys, hkeys, h⟩ := Outcome.bind_eq_ok_iff.1 h
            rw [Outcome.pure_eq, Outcome.ok.injEq] at h
            rw [← h, map_name_of_deserializeKeyPairs hkeys]
            exact hn
          · simp [hts, hn] at h

theorem loads_of_loadConfig {crates : Crates} {file : Option Bytes} {config : Config}
    (h : loadConfig crates .none file = .ok config) : Loads crates file config.keys := by
  rw [Loads, if_pos (nodup_name_of_loadConfig h)]
  exact h

/-- What was loaded is what the file is for. -/
theorem Loads.keys_eq {crates : Crates} {file : Option Bytes} {keys : List KeyPair}
    {load : LoadFault} {config : Config} (h : Loads crates file keys)
    (hload : loadConfig crates load file = .ok config) : config.keys = keys := by
  have hnone := loadConfig_of_fault hload
  rw [Loads] at h
  by_cases hn : (keys.map KeyPair.name).Nodup
  · rw [if_pos hn, hnone, Outcome.ok.injEq] at h
    rw [h]
  · rw [if_neg hn, hnone] at h
    cases h

/-- With two keys of one name nothing is loaded. -/
theorem Loads.startMain_eq {crates : Crates} {file : Option Bytes} {keys : List KeyPair}
    (h : Loads crates file keys) (hn : ¬ (keys.map KeyPair.name).Nodup) (load : LoadFault)
    (saves : Stream' SaveFault) (confirms : Stream' Bool) :
    startMain crates load saves confirms file = .stopped file := by
  rw [startMain]
  split
  · next config hload =>
      have hkeys := h.keys_eq hload
      exact absurd (hkeys ▸ nodup_name_of_loadConfig (loadConfig_of_fault hload)) hn
  · rfl

/-! ## Steps -/

section Lawful

variable {crates : Crates} (hl : crates.Lawful)

include hl

/-- A start carries the keys on, or ends before it has changed the file. -/
theorem carried_start {keys : List KeyPair} {file : Option Bytes} {load : LoadFault}
    {saves : Stream' SaveFault} {confirms : Stream' Bool} (h : Loads crates file keys)
    (hsaves : SavesThrough crates (.stopped file) (.start load saves confirms)) :
    Carried crates keys (startMain crates load saves confirms file) := by
  have hstopped : Carried crates keys (.stopped file) := carried_stopped h
  rw [startMain]
  rw [SavesThrough] at hsaves
  cases hload : loadConfig crates load file with
  | err e => exact hstopped
  | panic => exact hstopped
  | ok config =>
      have hkeys := h.keys_eq hload
      simp only [hload] at hsaves ⊢
      rcases hsaves with hcreate | hsave
      · rw [hcreate]
        exact hstopped
      · obtain ⟨bytes, hbytes, hsaved⟩ := saved_of_save hsave
        rcases hresult : config.save crates saves.head file with ⟨outcome, file'⟩
        rw [hresult] at hsave hbytes
        cases hsave
        cases hbytes
        rw [hkeys] at hsaved
        exact carried_of_agent rfl rfl (loadConfig_saved hl hsaved) hkeys

/-- A new key is in the list and the file after the request. -/
theorem carried_stored {keys : List KeyPair} {w : World} {call : Call} {keyPair : KeyPair}
    (h : Carried crates keys (.serving w)) (hadd : addedBy call.buf = some keyPair)
    (hnew : keyPair.publicKey ∉ w.publicKeys) (hsave : ¬ UnsavedAddition crates w call.buf) :
    Carried crates (insertNew KeyPair.publicKey keys keyPair)
      (.serving (w.store crates keyPair)) := by
  have hkeys : w.config.keys = keys := h.agent w rfl
  have hok : w.SaveOk crates keyPair := by
    by_contra hnot
    exact hsave ⟨keyPair, hadd, hnew, hnot⟩
  obtain ⟨bytes, hbytes, hsaved⟩ := saved_of_save hok
  have hinsert : insertNew KeyPair.publicKey keys keyPair =
      (w.store crates keyPair).config.keys := by
    rw [← hkeys]
    exact insertNew_of_notMem hnew
  have hfile : (w.store crates keyPair).file = some bytes := hbytes
  rw [hinsert]
  apply carried_of_agent rfl rfl ?_ rfl
  rw [hfile]
  exact loadConfig_saved hl hsaved

/-- **One request** adds its key to the list and to the file, unless the list has it, or panics
with both as they were. -/
theorem carried_request {keys : List KeyPair} {w : World} {s' : Service} {call : Call}
    (h : Carried crates keys (.serving w)) (hsave : ¬ UnsavedAddition crates w call.buf)
    (hstep : (serviceMachine crates).step (.serving w) (.request call) = some s') :
    Carried crates (keysOver keys [.request call]) s' := by
  have hkeys : w.config.keys = keys := h.agent w rfl
  simp only [serviceMachine, Agent.handleRequest_eq] at hstep
  rcases stores_or_untouched crates call.info w call.buf with ⟨keyPair, hadd, hnew⟩ |
    ⟨hpresent, hsame⟩
  · rw [handled_of_new hadd hnew] at hstep
    cases hstep
    have hover : keysOver keys [.request call] = insertNew KeyPair.publicKey keys keyPair := by
      simp [keysOver, ServiceAct.added, hadd]
    rw [hover]
    exact carried_stored hl h hadd hnew hsave
  · have hover : keysOver keys [.request call] = keys := by
      rw [keysOver, List.filterMap_cons, ServiceAct.added]
      cases hadd : addedBy call.buf with
      | none => rfl
      | some keyPair => exact insertNew_of_mem (hkeys ▸ hpresent keyPair hadd)
    rw [hover]
    generalize handled crates call.info w call.buf = r at hstep hsame
    rcases r with ⟨outcome, w', events⟩
    have hfile : Loads crates w'.file keys := by
      rw [hsame.file]
      exact h.file
    have hkeys' : w'.config.keys = keys := by
      rw [hsame.config]
      exact hkeys
    cases outcome with
    | ok reply =>
        cases hstep
        exact carried_of_agent rfl rfl hfile hkeys'
    | err e =>
        cases hstep
        exact carried_of_agent rfl rfl hfile hkeys'
    | panic =>
        cases hstep
        exact carried_of_agent rfl rfl hfile hkeys'

/-- **One step** carries the keys on, with those that it adds. -/
theorem carried_step {keys : List KeyPair} {s s' : Service} {act : ServiceAct}
    (h : Carried crates keys s) (hsave : SavesThrough crates s act)
    (hstep : (serviceMachine crates).step s act = some s') :
    Carried crates (keysOver keys [act]) s' := by
  cases s with
  | stopped file =>
      cases act with
      | start load saves confirms =>
          cases hstep
          exact carried_start hl h.file hsave
      | request call => cases hstep
      | reload load => cases hstep
      | stop => cases hstep
  | serving w =>
      have hkeys : w.config.keys = keys := h.agent w rfl
      cases act with
      | start load saves confirms => cases hstep
      | request call => exact carried_request hl h hsave hstep
      | reload load =>
          cases hstep
          refine ⟨h.file, ?_⟩
          intro w' hw'
          cases hw'
          -- a reload that succeeds finds what the list is
          show (Config.reload crates load w.file w.config).2.keys = keys
          rw [Config.reload]
          cases hload : loadConfig crates load w.file with
          | ok config => exact h.file.keys_eq hload
          | err e => exact hkeys
          | panic => exact hkeys
      | stop =>
          cases hstep
          exact carried_stopped h.file
  | poisoned w =>
      cases act with
      | stop =>
          cases hstep
          exact carried_stopped h.file
      | start load saves confirms => cases hstep
      | request call => cases hstep
      | reload load => cases hstep

theorem carried_run {keys : List KeyPair} {s s' : Service} {acts : List ServiceAct}
    (h : Carried crates keys s)
    (hsaves : (serviceMachine crates).AllSteps (SavesThrough crates) s acts)
    (hrun : (serviceMachine crates).run s acts = some s') :
    Carried crates (keysOver keys acts) s' := by
  induction acts generalizing keys s with
  | nil =>
      cases hrun
      exact h
  | cons act acts ih =>
      obtain ⟨s₁, hstep, hrun⟩ := Machine.run_cons_eq_some hrun
      obtain ⟨hsave, hsaves⟩ := hsaves s₁ hstep
      have hover : keysOver keys (act :: acts) = keysOver (keysOver keys [act]) acts := by
        rw [keysOver, keysOver, keysOver, ← List.foldl_append, ← List.filterMap_append,
          List.singleton_append]
      rw [hover]
      exact ih (carried_step hl h hsave hstep) hsaves hrun

end Lawful

/-- A program that cannot load its file never changes it. -/
theorem run_stopped {crates : Crates} {file : Option Bytes} {s : Service} {acts : List ServiceAct}
    (h : ∀ load saves confirms, startMain crates load saves confirms file = .stopped file)
    (hrun : (serviceMachine crates).run (.stopped file) acts = some s) : s = .stopped file := by
  apply Machine.run_invariant (I := fun s => s = .stopped file) ?_ acts rfl hrun
  rintro s act s' rfl hstep
  cases act with
  | start load saves confirms =>
      cases hstep
      exact h load saves confirms
  | request call => cases hstep
  | reload load => cases hstep
  | stop => cases hstep

/-- **Keys outlive restarts.** From a file that loads, at every moment of a life whose saves go
through, the agent that runs has the keys of the file and of all additions so far, and so has the
next start if no two of them have one name. If two have, then no start ever serves again once the
session is over, and the file stays as it is. -/
theorem keys_outlive_restarts (crates : Crates) (hl : crates.Lawful) (file : Option Bytes)
    (config : Config) (hload : loadConfig crates .none file = .ok config)
    (acts : List ServiceAct) (s : Service)
    (hsaves : (serviceMachine crates).AllSteps (SavesThrough crates) (.stopped file) acts)
    (hrun : (serviceMachine crates).run (.stopped file) acts = some s) :
    Carried crates (keysOver config.keys acts) s ∧
      (¬ ((keysOver config.keys acts).map KeyPair.name).Nodup →
        ∀ later s', (serviceMachine crates).run (.stopped s.file) later = some s' →
          s' = .stopped s.file) := by
  have h : Carried crates (keysOver config.keys acts) s :=
    carried_run hl (carried_stopped (loads_of_loadConfig hload)) hsaves hrun
  refine ⟨h, ?_⟩
  intro hn later s' hlater
  apply run_stopped ?_ hlater
  exact h.file.startMain_eq hn

instance (crates : Crates) (s : Service) (act : ServiceAct) :
    Decidable (SavesThrough crates s act) :=
  match s, act with
  | .stopped file, .start load saves _ =>
      match h : loadConfig crates load file with
      | .ok config =>
          decidable_of_iff
            (saves.head = .create ∨ (config.save crates saves.head file).1 = .ok ())
            (by simp [SavesThrough, h])
      | .err _ => isTrue (by simp [SavesThrough, h])
      | .panic => isTrue (by simp [SavesThrough, h])
  | .stopped _, .request _ => isTrue trivial
  | .stopped _, .reload _ => isTrue trivial
  | .stopped _, .stop => isTrue trivial
  | .serving w, .request call => inferInstanceAs (Decidable (¬ UnsavedAddition crates w call.buf))
  | .serving _, .start _ _ _ => isTrue trivial
  | .serving _, .reload _ => isTrue trivial
  | .serving _, .stop => isTrue trivial
  | .poisoned _, _ => isTrue trivial

/-- A key in each of two sessions, both under one name. The start between the two sessions cannot
open the file for its save. -/
def twoSessions : List ServiceAct :=
  [.start .none (Stream'.const .none) (Stream'.const true),
    .request ⟨⟨"Pipe", none⟩, addIdentityRequest smallKey "a"⟩, .stop,
    .start .none (Stream'.const .create) (Stream'.const true),
    .start .none (Stream'.const .none) (Stream'.const true),
    .request ⟨⟨"Unix", none⟩, addIdentityRequest { smallKey with e := 7 } "a"⟩]

theorem keys_outlive_restarts_small :
    ∃ s, (serviceMachine Reference.crates).run (.stopped none) twoSessions = some s ∧
      Carried Reference.crates (keysOver [] twoSessions) s ∧
      ∀ later s', (serviceMachine Reference.crates).run (.stopped s.file) later = some s' →
        s' = .stopped s.file := by
  obtain ⟨s, hs⟩ := Option.isSome_iff_exists.1
    (show ((serviceMachine Reference.crates).run (.stopped none) twoSessions).isSome = true by
      decide +kernel)
  have h := keys_outlive_restarts Reference.crates Reference.lawful none Config.default rfl
    twoSessions s (by decide +kernel) hs
  exact ⟨s, hs, h.1, h.2 (by decide +kernel)⟩

/-! ## Signatures in later sessions -/

/-- What the agent does when a signature with the key `k` is asked for: it signs with the key pair
that it has for `k`, if the user allows it, and otherwise refuses without a dialog. -/
inductive SignsFor (crates : Crates) (w : World) (k : PublicKey) : Option KeyPair → Prop where
  | known {keyPair : KeyPair} (h : SignsWith crates w k keyPair.privateKey) :
      SignsFor crates w k (some keyPair)
  | unknown (h : ∀ buf info msg flags, SignRequestFor buf k msg flags →
        Agent.handleRequest crates buf info w =
          ⟨.ok [sshAgentFailure], w, [.request w.config.keys buf info]⟩) :
      SignsFor crates w k none

theorem signsFor_find? (crates : Crates) (w : World) (k : PublicKey) :
    SignsFor crates w k (w.config.keys.find? fun keyPair => keyPair.publicKey = k) := by
  cases hfind : w.config.keys.find? (fun keyPair => keyPair.publicKey = k) with
  | some keyPair =>
      obtain ⟨hkey, pre, post, hkeys, hpre⟩ := List.find?_eq_some_iff_append.1 hfind
      have hget : Agent.getKey w.config k = some (keyPair, pre.length) := by
        refine Agent.getKey_eq_some_iff.2 ⟨pre, post, hkeys, rfl, of_decide_eq_true hkey, ?_⟩
        intro hmem
        obtain ⟨other, hother, hsame⟩ := List.mem_map.1 hmem
        have hnot := hpre other hother
        simp [hsame] at hnot
      exact .known (signsWith_of_getKey crates hget)
  | none =>
      have hget : Agent.getKey w.config k = none := by
        refine Agent.getKey_eq_none_iff.2 ?_
        intro hmem
        obtain ⟨keyPair, hkeyPair, hkey⟩ := List.mem_map.1 hmem
        exact List.find?_eq_none.1 hfind keyPair hkeyPair (decide_eq_true hkey)
      apply SignsFor.unknown
      intro buf info msg flags hrequest
      rw [Agent.handleRequest_eq, handled, parse_eq_signRequest_iff.2 hrequest]
      simp only [perform, hget]
      rfl

/-- **The first key signs.** In every session of a life whose saves go through, the key pair that
signs for a public key is the first with it among those of the first file and of the additions of
all sessions so far, and there is none exactly if it has never come. -/
theorem first_key_signs (crates : Crates) (hl : crates.Lawful) (file : Option Bytes)
    (config : Config) (hload : loadConfig crates .none file = .ok config)
    (acts : List ServiceAct) (w : World)
    (hsaves : (serviceMachine crates).AllSteps (SavesThrough crates) (.stopped file) acts)
    (hrun : (serviceMachine crates).run (.stopped file) acts = some (.serving w))
    (k : PublicKey) :
    SignsFor crates w k ((config.keys ++ acts.filterMap ServiceAct.added).find?
      fun keyPair => keyPair.publicKey = k) := by
  have h : Carried crates (keysOver config.keys acts) (.serving w) :=
    carried_run hl (carried_stopped (loads_of_loadConfig hload)) hsaves hrun
  have hkeys : w.config.keys = keysOver config.keys acts := h.agent w rfl
  rw [← find?_foldl_insertNew, ← keysOver, ← hkeys]
  exact signsFor_find? crates w k

/-- A key of one session, and the start of the next one. -/
def nextSession : List ServiceAct :=
  [.start .none (Stream'.const .none) (Stream'.const true),
    .request ⟨⟨"Pipe", none⟩, addIdentityRequest smallKey "a"⟩, .stop,
    .start .none (Stream'.const .none) (Stream'.const true)]

/-- The agent, while it handles requests. -/
def Service.serves : Service → Option World
  | .serving w => some w
  | _ => none

theorem first_key_signs_later :
    ∃ w, (serviceMachine Reference.crates).run (.stopped none) nextSession = some (.serving w) ∧
      SignsWith Reference.crates w (smallPair smallKey "a").publicKey
        (smallPair smallKey "a").privateKey := by
  obtain ⟨w, hw⟩ := Option.isSome_iff_exists.1
    (show (((serviceMachine Reference.crates).run (.stopped none) nextSession).bind
      Service.serves).isSome = true by decide +kernel)
  obtain ⟨s, hs, hserves⟩ := Option.bind_eq_some_iff.1 hw
  cases s with
  | stopped file => cases hserves
  | poisoned w' => cases hserves
  | serving w' =>
      cases hserves
      have hadded : nextSession.filterMap ServiceAct.added = [smallPair smallKey "a"] := by
        decide +kernel
      have hsaves : (serviceMachine Reference.crates).AllSteps (SavesThrough Reference.crates)
          (.stopped none) nextSession := by decide +kernel
      have h := first_key_signs Reference.crates Reference.lawful none Config.default rfl
        nextSession w hsaves hs (smallPair smallKey "a").publicKey
      rw [hadded, Config.default, List.nil_append,
        List.find?_cons_of_pos (by simp)] at h
      cases h with
      | known hsigns => exact ⟨w, hs, hsigns⟩

end SshKeys
