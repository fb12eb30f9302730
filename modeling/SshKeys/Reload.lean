import SshKeys.Persistence
import SshKeys.Lookup

/-!
# The user at the configuration file

Runs of one agent whose configuration file the user edits, and which reloads the file on the tray
command. The list in memory is what an addition saves, whatever the file says by then, and it is
what a reload replaces, whatever the file holds.

`removed_keys_stay_removed_iff` says which runs keep a key out of the file once the user has deleted
its block: the agent must not save a list that still has the key. `one_entry_per_key_iff` says which
runs keep the public keys of the list distinct: an addition checks its key against the list, but a
load takes whatever the tables hold.
-/

set_option autoImplicit false

namespace SshKeys

open Lib Lib.FirstWins

/-- `lock.config_mut().reload()` on a file whose content is `file`. -/
def World.reload (crates : Crates) (w : World) (file : Option Bytes) : World :=
  { w with config := (Config.reload crates .none file w.config).2, file }

theorem reload_of_ok {crates : Crates} {w : World} {file : Option Bytes} {config : Config}
    (h : loadConfig crates .none file = .ok config) :
    w.reload crates file = { w with config, file } := by
  rw [World.reload, Config.reload, h]

/-! ## Deleted blocks -/

/-- The agent, and the keys that the user has taken out of the file and no client has sent since. -/
structure Edited where
  world : World
  removed : List PublicKey

/-- The steps of a run with a user at the file. -/
inductive EditAct where
  | request (call : Call)
  /-- The user deletes blocks, which leaves `bytes`. -/
  | delete (bytes : Bytes)
  | reload

/-- A request is handled and answered; saves that fail are left out. -/
def Edited.request (crates : Crates) (s : Edited) (call : Call) : Option Edited :=
  match Agent.handleRequest crates call.buf call.info s.world with
  | ⟨.ok _, w, events⟩ =>
      if .save false ∈ events then none
      else
        some {
          world := w
          removed := s.removed.filter fun k =>
            decide ((addedBy call.buf).map KeyPair.publicKey ≠ some k) }
  | _ => none

/-- Spaces and line breaks, which is all that is left where every block is deleted. -/
def Blank (bytes : Bytes) : Prop := ∀ b ∈ bytes, b = 10 ∨ b = 13 ∨ b = 32

instance : DecidablePred Blank := fun bytes =>
  inferInstanceAs (Decidable (∀ b ∈ bytes, b = 10 ∨ b = 13 ∨ b = 32))

/-- The tables that are left in `bytes` are some of the old ones, in their order. A text without a
block need not be a document. -/
def SomeLeft (bytes : Bytes) : Option (List Table) → Option (List Table) → Prop
  | some ts, some left => left.Sublist ts
  | some _, none => Blank bytes
  | none, _ => False

instance (bytes : Bytes) : ∀ ts left : Option (List Table), Decidable (SomeLeft bytes ts left)
  | some ts, some left => inferInstanceAs (Decidable (left.Sublist ts))
  | some _, none => inferInstanceAs (Decidable (Blank bytes))
  | none, _ => isFalse id

/-- `bytes` is the file without some of its blocks. -/
def DeletesBlocks (crates : Crates) (file : Option Bytes) (bytes : Bytes) : Prop :=
  SomeLeft bytes (file.bind crates.tables) (crates.tables bytes)

instance (crates : Crates) (file : Option Bytes) (bytes : Bytes) :
    Decidable (DeletesBlocks crates file bytes) :=
  inferInstanceAs (Decidable (SomeLeft bytes (file.bind crates.tables) (crates.tables bytes)))

/-- The user deletes blocks, whose keys are removed from then on. -/
def Edited.delete (crates : Crates) (s : Edited) (bytes : Bytes) : Option Edited :=
  if DeletesBlocks crates s.world.file bytes then
    some {
      world := { s.world with file := some bytes }
      removed := s.removed ++ (fileKeys crates s.world.file).filter fun k =>
        decide (k ∉ fileKeys crates (some bytes)) }
  else none

/-- The tray command; loads that fail are left out. -/
def Edited.reload (crates : Crates) (s : Edited) : Option Edited :=
  match loadConfig crates .none s.world.file with
  | .ok _ => some { s with world := s.world.reload crates s.world.file }
  | _ => none

/-- The agent, its clients and the user at the file, one step after the other. -/
def editMachine (crates : Crates) : Machine Edited EditAct where
  step s act :=
    match act with
    | .request call => s.request crates call
    | .delete bytes => s.delete crates bytes
    | .reload => s.reload crates

/-- No removed key is in the file. -/
def StaysRemoved (crates : Crates) (s : Edited) : Prop :=
  ∀ k ∈ s.removed, k ∉ fileKeys crates s.world.file

instance (crates : Crates) : DecidablePred (StaysRemoved crates) := fun s =>
  inferInstanceAs (Decidable (∀ k ∈ s.removed, k ∉ fileKeys crates s.world.file))

/-- The request adds a key that is not in the list. -/
def AddsNew (w : World) (buf : Bytes) : Prop :=
  ∃ keyPair, addedBy buf = some keyPair ∧ keyPair.publicKey ∉ w.publicKeys

instance (w : World) (buf : Bytes) : Decidable (AddsNew w buf) :=
  inferInstanceAs (Decidable (∃ keyPair ∈ addedBy buf, keyPair.publicKey ∉ w.publicKeys))

/-- No new key is added while the list still has a key that the user has removed. -/
def ForgottenBefore (s : Edited) : EditAct → Prop
  | .request call => AddsNew s.world call.buf → ∀ k ∈ s.removed, k ∉ s.world.publicKeys
  | _ => True

instance (s : Edited) : DecidablePred (ForgottenBefore s)
  | .request call => inferInstanceAs
      (Decidable (AddsNew s.world call.buf → ∀ k ∈ s.removed, k ∉ s.world.publicKeys))
  | .delete _ => isTrue trivial
  | .reload => isTrue trivial

theorem fileKeys_subset_of_deletesBlocks {crates : Crates} {file : Option Bytes} {bytes : Bytes}
    (h : DeletesBlocks crates file bytes) {k : PublicKey} (hk : k ∈ fileKeys crates (some bytes)) :
    k ∈ fileKeys crates file := by
  cases file with
  | none => exact absurd h not_false
  | some old =>
      rw [DeletesBlocks, Option.bind_some] at h
      simp only [fileKeys] at hk ⊢
      cases hold : crates.tables old with
      | none => simp [hold, SomeLeft] at h
      | some ts =>
          cases hnew : crates.tables bytes with
          | none => simp [hnew] at hk
          | some left =>
              rw [hold, hnew] at h
              rw [hnew] at hk
              exact (List.Sublist.filterMap _ h).subset hk

/-- What a request does: it saves the list with a new key, or it leaves list and file alone. -/
theorem edited_request_cases {crates : Crates} {s s' : Edited} {call : Call}
    (h : s.request crates call = some s') :
    (∃ keyPair, addedBy call.buf = some keyPair ∧ keyPair.publicKey ∉ s.world.publicKeys ∧
      s.world.SaveOk crates keyPair ∧ s'.world = s.world.store crates keyPair ∧
      s'.removed = s.removed.filter fun k => decide (keyPair.publicKey ≠ k)) ∨
    (¬ AddsNew s.world call.buf ∧ s'.world.file = s.world.file ∧
      ∀ k ∈ s'.removed, k ∈ s.removed) := by
  rw [Edited.request] at h
  split at h
  next reply w events hrequest =>
    rw [Option.ite_none_left_eq_some, Option.some.injEq] at h
    obtain ⟨hsaves, rfl⟩ := h
    rcases saves_or_untouched hrequest hsaves with ⟨keyPair, hadd, hnew, hsave, -, rfl, -⟩ |
      ⟨hpresent, -, hfile, -⟩
    · refine Or.inl ⟨keyPair, hadd, hnew, hsave, rfl, ?_⟩
      simp [hadd]
    · refine Or.inr ⟨?_, hfile, fun k hk => (List.mem_filter.1 hk).1⟩
      rintro ⟨keyPair, hadd, hnew⟩
      exact hnew (hpresent keyPair hadd)
  · cases h

section Lawful

variable {crates : Crates} (hl : crates.Lawful) {s s' : Edited}

include hl

/-- An addition of a new key keeps the removed keys out of the file exactly when the list has none
of them. -/
theorem staysRemoved_request_iff {call : Call} (hs : StaysRemoved crates s)
    (h : s.request crates call = some s') :
    StaysRemoved crates s' ↔ ForgottenBefore s (.request call) := by
  rcases edited_request_cases h with ⟨keyPair, hadd, hnew, hsave, hworld, hremoved⟩ |
    ⟨hnot, hfile, hsub⟩
  · have hadds : AddsNew s.world call.buf := ⟨keyPair, hadd, hnew⟩
    have hkeys : fileKeys crates s'.world.file = s.world.publicKeys ++ [keyPair.publicKey] := by
      rw [hworld]
      exact fileKeys_saved_of_saveOk hl hsave
    rw [StaysRemoved, hkeys, hremoved, ForgottenBefore]
    constructor
    · intro hout _ k hk hmem
      -- the added key itself is not in the list, so a removed key of the list is another one
      have hne : keyPair.publicKey ≠ k := by
        rintro rfl
        exact hnew hmem
      exact hout k (List.mem_filter.2 ⟨hk, decide_eq_true hne⟩) (List.mem_append_left _ hmem)
    · intro hforgotten k hk hmem
      obtain ⟨hk, hne⟩ := List.mem_filter.1 hk
      rcases List.mem_append.1 hmem with hmem | hmem
      · exact hforgotten hadds k hk hmem
      · exact of_decide_eq_true hne (List.mem_singleton.1 hmem).symm
  · refine iff_of_true ?_ fun hadds => absurd hadds hnot
    intro k hk
    rw [hfile]
    exact hs k (hsub k hk)

omit hl in
theorem staysRemoved_delete {bytes : Bytes} (hs : StaysRemoved crates s)
    (h : s.delete crates bytes = some s') : StaysRemoved crates s' := by
  rw [Edited.delete] at h
  split at h
  · next hdeletes =>
      rw [Option.some.injEq] at h
      subst h
      intro k hk hmem
      rcases List.mem_append.1 hk with hk | hk
      · exact hs k hk (fileKeys_subset_of_deletesBlocks hdeletes hmem)
      · exact of_decide_eq_true (List.mem_filter.1 hk).2 hmem
  · cases h

omit hl in
theorem staysRemoved_reload (hs : StaysRemoved crates s) (h : s.reload crates = some s') :
    StaysRemoved crates s' := by
  rw [Edited.reload] at h
  split at h
  · rw [Option.some.injEq] at h
    subst h
    exact hs
  · cases h

/-- **Removed keys.** In a run from a moment before any deletion, no key whose block the user has
deleted is in the file again before a client sends it, exactly when the agent never adds a new key
while its list still has a removed one. -/
theorem removed_keys_stay_removed_iff (w : World) (acts : List EditAct) :
    (editMachine crates).AllStates (StaysRemoved crates) { world := w, removed := [] } acts ↔
      (editMachine crates).AllSteps ForgottenBefore { world := w, removed := [] } acts := by
  refine Machine.allStates_iff_allSteps (J := fun _ => True) (fun _ _ _ _ _ _ _ => trivial) ?_ acts
    trivial (by simp [StaysRemoved])
  intro s act s' _ hs hstep
  cases act with
  | request call => exact staysRemoved_request_iff hl hs hstep
  | delete bytes => exact iff_of_true (staysRemoved_delete hs hstep) trivial
  | reload => exact iff_of_true (staysRemoved_reload hs hstep) trivial

end Lawful

/-- Two keys are added and the block of the first is deleted. -/
def deletingRun : List EditAct :=
  [.request ⟨⟨"Pipe", none⟩, addIdentityRequest smallKey "a"⟩,
    .request ⟨⟨"Pipe", none⟩, addIdentityRequest { smallKey with e := 9 } "c"⟩,
    .delete (Reference.textOf [smallPair { smallKey with e := 9 } "c"])]

/-- The agent reloads, and another key is added. -/
theorem removed_keys_stay_removed_small :
    (editMachine Reference.crates).AllStates (StaysRemoved Reference.crates)
      { world := emptyWorld true .none, removed := [] }
      (deletingRun ++ [.reload,
        .request ⟨⟨"Pipe", none⟩, addIdentityRequest { smallKey with e := 7 } "b"⟩]) :=
  (removed_keys_stay_removed_iff Reference.lawful (emptyWorld true .none) _).2 (by decide +kernel)

/-- Without the reload the next addition writes the deleted block back. -/
theorem removed_key_comes_back :
    ¬ (editMachine Reference.crates).AllStates (StaysRemoved Reference.crates)
      { world := emptyWorld true .none, removed := [] }
      (deletingRun ++
        [.request ⟨⟨"Pipe", none⟩, addIdentityRequest { smallKey with e := 7 } "b"⟩]) := by
  decide +kernel

/-! ## One entry for each public key -/

/-- A request, or the tray command. The file can have been edited before a reload. -/
inductive ReloadAct where
  | request (call : Call)
  /-- The tray command, at a moment when the file holds `file`. -/
  | reload (file : Option Bytes)

/-- The agent, and reloads of a file with any content. -/
def reloadMachine (crates : Crates) : Machine World ReloadAct where
  step w act :=
    match act with
    | .request call => (agentMachine crates).step w call
    | .reload file => some (w.reload crates file)

/-- No two pairs of the list have the same public key, so every pair is the one found for its key,
and no blob is listed twice. -/
structure OneEntryPerKey (w : World) : Prop where
  nodup : w.publicKeys.Nodup
  lookup : ∀ keyPair ∈ w.config.keys, ∃ idx,
    Agent.getKey w.config keyPair.publicKey = some (keyPair, idx)
  listing : ∀ entries, Listed w.config.keys entries →
    (∀ entry ∈ entries, entry.1.length < 2 ^ 32) → (entries.map Prod.fst).Nodup

/-- No two blocks of a file that is loaded have the same public key. -/
def LoadsDistinct (crates : Crates) : ReloadAct → Prop
  | .request _ => True
  | .reload file => (loadConfig crates .none file).toOption ≠ none → (fileKeys crates file).Nodup

instance (crates : Crates) : DecidablePred (LoadsDistinct crates)
  | .request _ => isTrue trivial
  | .reload file => inferInstanceAs (Decidable
      ((loadConfig crates .none file).toOption ≠ none → (fileKeys crates file).Nodup))

theorem getKey_of_nodup {keys : List KeyPair} (h : (keys.map KeyPair.publicKey).Nodup)
    {keyPair : KeyPair} (hmem : keyPair ∈ keys) :
    ∃ idx, Agent.getKey { keys } keyPair.publicKey = some (keyPair, idx) := by
  obtain ⟨pre, post, rfl⟩ := List.append_of_mem hmem
  refine ⟨pre.length, Agent.getKey_eq_some_iff.2 ⟨pre, post, rfl, rfl, rfl, ?_⟩⟩
  intro hpre
  -- the key would be before the pair and at the pair
  rw [List.map_append, List.nodup_append] at h
  exact h.2.2 _ hpre _ (List.mem_map_of_mem List.mem_cons_self) rfl

theorem nodup_blobs_of_nodup {keys : List KeyPair} {entries : List (Bytes × Bytes)}
    (hlisted : Listed keys entries) (h : (keys.map KeyPair.publicKey).Nodup) :
    (entries.map Prod.fst).Nodup := by
  induction hlisted with
  | nil => exact List.nodup_nil
  | @cons keyPair entry keys entries hhead htail ih =>
      rw [List.map_cons, List.nodup_cons] at h ⊢
      refine ⟨?_, ih h.2⟩
      intro hmem
      obtain ⟨other, hother, hblob⟩ := List.mem_map.1 hmem
      obtain ⟨keyPair', hkey', henc⟩ := Listed.exists_keyPair htail hother
      -- two entries with one blob belong to one key
      rw [hblob] at henc
      have hsame := PublicKey.encode_injective hhead.1 henc
      apply h.1
      rw [hsame]
      exact List.mem_map_of_mem hkey'

theorem oneEntryPerKey_iff {w : World} : OneEntryPerKey w ↔ w.publicKeys.Nodup := by
  constructor
  · exact OneEntryPerKey.nodup
  · intro h
    exact ⟨h, fun keyPair hmem => getKey_of_nodup h hmem,
      fun entries hlisted _ => nodup_blobs_of_nodup hlisted h⟩

instance : DecidablePred OneEntryPerKey := fun _ => decidable_of_iff _ oneEntryPerKey_iff.symm

/-- A request keeps the public keys distinct. -/
theorem nodup_publicKeys_handled (crates : Crates) (info : RequestInfo) {w : World} (buf : Bytes)
    (h : w.publicKeys.Nodup) : (handled crates info w buf).world.publicKeys.Nodup := by
  rw [World.publicKeys, keys_handled]
  exact nodup_foldl_insertNew h

/-- A load takes the keys of the file. -/
theorem publicKeys_reload_of_ok {crates : Crates} {w : World} {file : Option Bytes}
    {config : Config} (h : loadConfig crates .none file = .ok config) :
    (w.reload crates file).publicKeys = fileKeys crates file := by
  rw [reload_of_ok h, fileKeys_of_loadConfig h]
  rfl

theorem nodup_publicKeys_reload_iff (crates : Crates) {w : World} (file : Option Bytes)
    (h : w.publicKeys.Nodup) :
    (w.reload crates file).publicKeys.Nodup ↔ LoadsDistinct crates (.reload file) := by
  rw [LoadsDistinct]
  cases hload : loadConfig crates .none file with
  | ok config =>
      rw [publicKeys_reload_of_ok hload]
      simp [Outcome.toOption]
  -- a file that does not load leaves the list as it is
  | err e =>
      refine iff_of_true ?_ fun hne => absurd rfl hne
      rw [World.reload, Config.reload, hload]
      exact h
  | panic =>
      refine iff_of_true ?_ fun hne => absurd rfl hne
      rw [World.reload, Config.reload, hload]
      exact h

/-- **One entry for each public key.** In a run of requests and reloads the public keys of the list
are distinct at every moment exactly when the file loaded at the start and every file loaded later
have no two blocks with the same public key. -/
theorem one_entry_per_key_iff (crates : Crates) (w : World) (file : Option Bytes)
    (hstart : loadConfig crates .none file = .ok w.config) (acts : List ReloadAct) :
    (reloadMachine crates).AllStates OneEntryPerKey w acts ↔
      (fileKeys crates file).Nodup ∧
        (reloadMachine crates).AllSteps (fun _ act => LoadsDistinct crates act) w acts := by
  have hkeys : fileKeys crates file = w.publicKeys := fileKeys_of_loadConfig hstart
  have hrule (hnodup : w.publicKeys.Nodup) :
      (reloadMachine crates).AllStates OneEntryPerKey w acts ↔
        (reloadMachine crates).AllSteps (fun _ act => LoadsDistinct crates act) w acts := by
    refine Machine.allStates_iff_allSteps (J := fun _ => True) (fun _ _ _ _ _ _ _ => trivial) ?_
      acts trivial (oneEntryPerKey_iff.2 hnodup)
    intro s act s' _ hs hstep
    rw [oneEntryPerKey_iff] at hs ⊢
    cases act with
    | request call =>
        refine iff_of_true ?_ trivial
        rw [agentMachine_step_eq_some hstep]
        exact nodup_publicKeys_handled crates call.info call.buf hs
    | reload file' =>
        rw [← Option.some.inj hstep]
        exact nodup_publicKeys_reload_iff crates file' hs
  rw [hkeys]
  constructor
  · intro h
    have hnodup := oneEntryPerKey_iff.1 h.head
    exact ⟨hnodup, (hrule hnodup).1 h⟩
  · rintro ⟨hnodup, h⟩
    exact (hrule hnodup).2 h

/-- A key is added, and a file with two other keys is loaded. -/
theorem one_entry_per_key_small :
    (reloadMachine Reference.crates).AllStates OneEntryPerKey (emptyWorld true .none)
      [.request ⟨⟨"Pipe", none⟩, addIdentityRequest smallKey "a"⟩,
        .reload (some (Reference.textOf
          [smallPair smallKey "a", smallPair { smallKey with e := 7 } "b"]))] := by
  refine (one_entry_per_key_iff Reference.crates (emptyWorld true .none) none rfl _).2
    ⟨List.nodup_nil, ?_⟩
  -- the request loads nothing, and the file has two keys
  intro w₁ _
  refine ⟨trivial, ?_⟩
  intro w₂ _
  refine ⟨?_, trivial⟩
  intro _
  rw [fileKeys_saved Reference.lawful (Reference.saved_textOf _)]
  decide

/-- The user has copied a block and given the copy another name. -/
theorem copied_block_is_loaded :
    ¬ (reloadMachine Reference.crates).AllStates OneEntryPerKey (emptyWorld true .none)
      [.reload (some (Reference.textOf [smallPair smallKey "a", smallPair smallKey "b"]))] := by
  have hload : loadConfig Reference.crates .none
      (some (Reference.textOf [smallPair smallKey "a", smallPair smallKey "b"])) =
        .ok { keys := [smallPair smallKey "a", smallPair smallKey "b"] } := by
    rw [loadConfig_saved Reference.lawful (Reference.saved_textOf _), if_pos (by decide)]
  intro h
  have hentry : OneEntryPerKey ((emptyWorld true .none).reload Reference.crates
      (some (Reference.textOf [smallPair smallKey "a", smallPair smallKey "b"]))) := h.2 _ rfl
  have hnodup := hentry.nodup
  rw [publicKeys_reload_of_ok hload,
    fileKeys_saved Reference.lawful (Reference.saved_textOf _)] at hnodup
  exact absurd hnodup (by decide)

end SshKeys
