import SshKeys.Panic
import SshKeys.Reply
import Mathlib.Data.Stream.Init

/-!
# Private keys and what can be seen of the agent

Two runs on the same requests, from lists that show the same public keys and names and may hold any
private keys behind them. What a client and the user see of a request is its reply, its dialogs and
the fate of its save (`Seen`).

`private_keys_do_not_leak` says that two such runs look the same but for the signatures that the
user confirmed: the private keys decide nothing else. The relation between the two worlds is that
their lists show the same (`LookAlike`), and one request keeps it (`handled_lookAlike`).
-/

set_option autoImplicit false

namespace SshKeys

open Lib Lib.FirstWins

/-! ## What is seen -/

/-- What a list shows of a key pair. -/
def KeyPair.shown (keyPair : KeyPair) : PublicKey × String := (keyPair.publicKey, keyPair.name)

/-- A dialog: the place of its key in the list, what it shows, and the answer. -/
structure Asked where
  idx : Option Nat
  publicKey : PublicKey
  name : String
  info : RequestInfo
  answer : Bool
  deriving DecidableEq

/-- The dialogs among the events of a request that met the list `keys`. -/
def askedIn (keys : List KeyPair) (events : List Event) : List Asked :=
  events.filterMap fun event =>
    match event with
    | .confirm keyPair info answer =>
        some ⟨(Agent.getKey { keys } keyPair.publicKey).map Prod.snd, keyPair.publicKey,
          keyPair.name, info, answer⟩
    | _ => none

/-- The fates of the saves among the events. -/
def savesIn (events : List Event) : List Bool :=
  events.filterMap fun event =>
    match event with
    | .save ok => some ok
    | _ => none

/-- What is seen of one request. A request without a reply is a panic. -/
structure Seen where
  reply : Option Bytes
  asked : List Asked
  saved : List Bool
  deriving DecidableEq

/-- What is seen of a sequence of requests, and the mutex after it. -/
def observe (crates : Crates) : AgentMutex → List Call → List Seen × AgentMutex
  | mutex, [] => ([], mutex)
  | mutex, call :: calls =>
      let (reply, mutex', events) := lockAndHandle crates mutex call
      let (seen, mutex'') := observe crates mutex' calls
      ({ reply, asked := askedIn mutex.world.config.keys events, saved := savesIn events } :: seen,
        mutex'')

/-- The user confirmed a dialog of the request. -/
def Seen.Confirmed (seen : Seen) : Prop := ∃ asked ∈ seen.asked, asked.answer = true

/-- Two requests show the same dialogs and, unless the user confirmed one, get the same reply. -/
structure SameButSignature (seen₁ seen₂ : Seen) : Prop where
  asked : seen₁.asked = seen₂.asked
  reply : ¬ seen₁.Confirmed → seen₁.reply = seen₂.reply

/-- The lists show the same at every place, and the user is going to answer the same. -/
structure LookAlike (w₁ w₂ : World) : Prop where
  shown : w₁.config.keys.map KeyPair.shown = w₂.config.keys.map KeyPair.shown
  confirms : w₁.confirms = w₂.confirms

/-- The saves end as `outcomes` says, one after the other. -/
def Follow (outcomes : Stream' Bool) (saves : List Bool) : Prop :=
  saves = outcomes.take saves.length

instance (outcomes : Stream' Bool) (saves : List Bool) : Decidable (Follow outcomes saves) :=
  inferInstanceAs (Decidable (saves = outcomes.take saves.length))

/-! ## Lists that show the same -/

section Shown

variable {keys₁ keys₂ : List KeyPair}
  (h : keys₁.map KeyPair.shown = keys₂.map KeyPair.shown)

include h

theorem map_publicKey_of_shown :
    keys₁.map KeyPair.publicKey = keys₂.map KeyPair.publicKey := by
  have hfst := congrArg (List.map Prod.fst) h
  simpa [Function.comp_def, KeyPair.shown] using hfst

/-- The lookup finds pairs that show the same, at the same place. -/
theorem getKey_of_shown {k : PublicKey} {keyPair : KeyPair} {idx : Nat}
    (hget : Agent.getKey { keys := keys₁ } k = some (keyPair, idx)) :
    ∃ other, Agent.getKey { keys := keys₂ } k = some (other, idx) ∧
      other.shown = keyPair.shown := by
  obtain ⟨pre, post, hkeys, hidx, hkey, hpre⟩ := Agent.getKey_eq_some_iff.1 hget
  rw [show keys₁ = pre ++ keyPair :: post from hkeys, List.map_append, List.map_cons] at h
  obtain ⟨pre', tail, rfl, hpre', htail⟩ := List.map_eq_append_iff.1 h.symm
  obtain ⟨other, post', rfl, hother, -⟩ := List.map_eq_cons_iff.1 htail
  refine ⟨other, Agent.getKey_eq_some_iff.2 ⟨pre', post', rfl, ?_, ?_, ?_⟩, hother⟩
  · have hlen := congrArg List.length hpre'
    rw [List.length_map, List.length_map] at hlen
    rw [hidx, hlen]
  · rw [← hkey]
    exact congrArg Prod.fst hother
  · rwa [← map_publicKey_of_shown hpre'.symm]

theorem getKey_eq_none_of_shown {k : PublicKey} (hget : Agent.getKey { keys := keys₁ } k = none) :
    Agent.getKey { keys := keys₂ } k = none := by
  rw [Agent.getKey_eq_none_iff] at hget ⊢
  show k ∉ keys₂.map KeyPair.publicKey
  rwa [← map_publicKey_of_shown h]

/-- A listing is made of what the list shows. -/
theorem writeIdentities_eq_of_shown :
    Agent.writeIdentities keys₁ = Agent.writeIdentities keys₂ := by
  induction keys₁ generalizing keys₂ with
  | nil => rw [List.map_eq_nil_iff.1 h.symm]
  | cons keyPair keys₁ ih =>
      obtain ⟨other, keys₂, rfl, hother, hkeys⟩ := List.map_eq_cons_iff.1 h.symm
      have hkey : other.publicKey = keyPair.publicKey := congrArg Prod.fst hother
      have hname : other.name = keyPair.name := congrArg Prod.snd hother
      rw [Agent.writeIdentities, Agent.writeIdentities, ih hkeys.symm, hkey, hname]

theorem identitiesAnswer_eq_of_shown : identitiesAnswer keys₁ = identitiesAnswer keys₂ := by
  have hlen := congrArg List.length h
  rw [List.length_map, List.length_map] at hlen
  rw [identitiesAnswer, identitiesAnswer, writeIdentities_eq_of_shown h, hlen]

end Shown

/-! ## One request -/

/-- The dialog for the pair that was found for `k`, and no further one. -/
theorem askedIn_confirm_cons {config : Config} {k : PublicKey} {keyPair : KeyPair} {idx : Nat}
    (hget : Agent.getKey config k = some (keyPair, idx)) {signs : List Event}
    (hsigns : askedIn config.keys signs = []) (info : RequestInfo) (answer : Bool) :
    askedIn config.keys (.confirm keyPair info answer :: signs) =
      [⟨some idx, k, keyPair.name, info, answer⟩] := by
  obtain ⟨-, -, -, -, hkey, -⟩ := Agent.getKey_eq_some_iff.1 hget
  have hcons : askedIn config.keys (.confirm keyPair info answer :: signs) =
      ⟨(Agent.getKey config keyPair.publicKey).map Prod.snd, keyPair.publicKey, keyPair.name, info,
        answer⟩ :: askedIn config.keys signs := rfl
  rw [hcons, hsigns, hkey, hget]
  rfl

/-- What two worlds that look alike show of one request, and that they look alike after it. -/
structure SameRun (w₁ w₂ : World) (r₁ r₂ : Ran World Event Error Bytes) : Prop where
  asked : askedIn w₁.config.keys r₁.events = askedIn w₂.config.keys r₂.events
  saved : savesIn r₁.events = savesIn r₂.events
  /-- Both end with a reply, or both panic. -/
  ends : r₁.outcome = .panic ↔ r₂.outcome = .panic
  outcome : (∀ asked ∈ askedIn w₁.config.keys r₁.events, asked.answer = false) →
    r₁.outcome = r₂.outcome
  after : LookAlike r₁.world r₂.world

section Handled

variable {crates : Crates} {info : RequestInfo} {w₁ w₂ : World} (h : LookAlike w₁ w₂)

include h

/-- The same reply and the same world after it, without a dialog or a save. -/
theorem sameRun_of_quiet (outcome : Outcome Error Bytes) :
    SameRun w₁ w₂ ⟨outcome, w₁, []⟩ ⟨outcome, w₂, []⟩ :=
  ⟨rfl, rfl, Iff.rfl, fun _ => rfl, h⟩

theorem mem_publicKeys_of_lookAlike {k : PublicKey} : k ∈ w₁.publicKeys ↔ k ∈ w₂.publicKeys := by
  rw [World.publicKeys, World.publicKeys, map_publicKey_of_shown h.shown]

theorem lookAlike_store (crates : Crates) (keyPair : KeyPair) :
    LookAlike (w₁.store crates keyPair) (w₂.store crates keyPair) where
  shown := by
    simp only [World.store, List.map_append, h.shown]
  confirms := h.confirms

theorem lookAlike_asked : LookAlike w₁.asked w₂.asked where
  shown := h.shown
  confirms := congrArg Stream'.tail h.confirms

/-- An addition looks the same when its save, if there is one, ends the same. -/
theorem sameRun_addIdentity {keyPair : KeyPair}
    (hsave : keyPair.publicKey ∉ w₁.publicKeys →
      (w₁.SaveOk crates keyPair ↔ w₂.SaveOk crates keyPair)) :
    SameRun w₁ w₂ (perform crates info w₁ (.addIdentity keyPair))
      (perform crates info w₂ (.addIdentity keyPair)) := by
  rw [perform, perform]
  by_cases hmem : keyPair.publicKey ∈ w₁.publicKeys
  · rw [if_pos hmem, if_pos ((mem_publicKeys_of_lookAlike h).1 hmem)]
    exact sameRun_of_quiet h _
  · have hmem' : keyPair.publicKey ∉ w₂.publicKeys := fun hk =>
      hmem ((mem_publicKeys_of_lookAlike h).2 hk)
    rw [if_neg hmem, if_neg hmem']
    have hafter := lookAlike_store h crates keyPair
    by_cases hok : w₁.SaveOk crates keyPair
    · rw [if_pos hok, if_pos ((hsave hmem).1 hok)]
      exact ⟨rfl, rfl, Iff.rfl, fun _ => rfl, hafter⟩
    · rw [if_neg hok, if_neg fun hok' => hok ((hsave hmem).2 hok')]
      exact ⟨rfl, rfl, Iff.rfl, fun _ => rfl, hafter⟩

omit h in
/-- A request for a signature with a stored key shows one dialog and then at most signs. -/
theorem perform_signRequest_of_getKey (crates : Crates) (info : RequestInfo) {w : World}
    {k : PublicKey} {keyPair : KeyPair} {idx : Nat}
    (hget : Agent.getKey w.config k = some (keyPair, idx)) (msg : Bytes) (flags : Nat) :
    ∃ reply signs, perform crates info w (.signRequest k msg flags) =
        ⟨.ok reply, w.asked, .confirm keyPair info w.confirms.head :: signs⟩ ∧
      (w.confirms.head = false → reply = [sshAgentFailure]) ∧
      (∀ keys, askedIn keys signs = []) ∧
      savesIn (.confirm keyPair info w.confirms.head :: signs) = [] := by
  have hsigning := signing_perform crates info w k msg flags
  generalize perform crates info w (.signRequest k msg flags) = r at hsigning ⊢
  cases hsigning with
  | unknown hnone =>
      rw [hget] at hnone
      cases hnone
  | refused hsome hyes =>
      rw [hget, Option.some.injEq, Prod.mk.injEq] at hsome
      obtain ⟨rfl, rfl⟩ := hsome
      exact ⟨_, [], by rw [hyes], fun _ => rfl, fun keys => rfl, rfl⟩
  | failed hsome hyes hsign =>
      rw [hget, Option.some.injEq, Prod.mk.injEq] at hsome
      obtain ⟨rfl, rfl⟩ := hsome
      exact ⟨_, _, by rw [hyes], fun _ => rfl, fun keys => rfl, rfl⟩
  | signed hsome hyes hsign =>
      rw [hget, Option.some.injEq, Prod.mk.injEq] at hsome
      obtain ⟨rfl, rfl⟩ := hsome
      exact ⟨_, _, by rw [hyes], fun hno => by simp [hyes] at hno, fun keys => rfl, rfl⟩

/-- A request for a signature looks the same but for the reply after a yes. -/
theorem sameRun_signRequest (publicKey : PublicKey) (msg : Bytes) (flags : Nat) :
    SameRun w₁ w₂ (perform crates info w₁ (.signRequest publicKey msg flags))
      (perform crates info w₂ (.signRequest publicKey msg flags)) := by
  cases hget : Agent.getKey w₁.config publicKey with
  | none =>
      have hother : Agent.getKey w₂.config publicKey = none :=
        getKey_eq_none_of_shown h.shown hget
      rw [perform, perform, hget, hother]
      exact sameRun_of_quiet h _
  | some entry =>
      rcases entry with ⟨keyPair, idx⟩
      obtain ⟨other, hother, hshown⟩ := getKey_of_shown h.shown hget
      obtain ⟨reply, signs, hperform, hno, hsigns, hsaved⟩ :=
        perform_signRequest_of_getKey crates info hget msg flags
      obtain ⟨reply', signs', hperform', hno', hsigns', hsaved'⟩ :=
        perform_signRequest_of_getKey crates info hother msg flags
      rw [hperform, hperform', ← h.confirms]
      rw [← h.confirms] at hno'
      have hname : other.name = keyPair.name := congrArg Prod.snd hshown
      have hasked := askedIn_confirm_cons hget (hsigns _) info w₁.confirms.head
      have hasked' := askedIn_confirm_cons hother (hsigns' _) info w₁.confirms.head
      refine ⟨by rw [hasked, hasked', hname], ?_, by simp, ?_, lookAlike_asked h⟩
      · rw [hsaved]
        exact hsaved'.symm
      · intro hanswers
        -- the answer is no, so both replies are failures
        have hanswer : w₁.confirms.head = false := by
          rw [hasked] at hanswers
          exact hanswers _ List.mem_cons_self
        rw [hno hanswer, hno' hanswer]

/-- **One request.** Worlds that look alike show the same of it, and look alike after it. -/
theorem handled_lookAlike (buf : Bytes)
    (hsave : ∀ keyPair, addedBy buf = some keyPair → keyPair.publicKey ∉ w₁.publicKeys →
      (w₁.SaveOk crates keyPair ↔ w₂.SaveOk crates keyPair)) :
    SameRun w₁ w₂ (handled crates info w₁ buf) (handled crates info w₂ buf) := by
  rw [handled, handled]
  cases hparse : Command.parse buf with
  | err e => exact sameRun_of_quiet h _
  | panic => exact sameRun_of_quiet h _
  | ok command =>
      cases command with
      | requestIdentities =>
          show SameRun w₁ w₂ ⟨identitiesAnswer w₁.config.keys, w₁, []⟩
            ⟨identitiesAnswer w₂.config.keys, w₂, []⟩
          rw [← identitiesAnswer_eq_of_shown h.shown]
          exact sameRun_of_quiet h _
      | addIdentity keyPair =>
          exact sameRun_addIdentity h (hsave keyPair (addedBy_eq_some_iff.2 hparse))
      | signRequest publicKey msg flags => exact sameRun_signRequest h publicKey msg flags

end Handled

/-! ## Runs -/

/-- Handling under the mutex in terms of what the request leads to. -/
theorem lockAndHandle_eq (crates : Crates) (w : World) (call : Call) :
    lockAndHandle crates { world := w, poisoned := false } call =
      ((handled crates call.info w call.buf).outcome.toOption,
        { world := (handled crates call.info w call.buf).world
          poisoned := (handled crates call.info w call.buf).outcome.toOption.isNone },
        .request w.config.keys call.buf call.info ::
          (handled crates call.info w call.buf).events) := by
  rw [lockAndHandle, Agent.handleRequest_eq, Effect.after]
  rcases handled crates call.info w call.buf with ⟨outcome, w', events⟩
  cases outcome <;> rfl

theorem isNone_toOption_handled_iff (crates : Crates) (info : RequestInfo) (w : World)
    (buf : Bytes) :
    (handled crates info w buf).outcome.toOption.isNone = true ↔
      (handled crates info w buf).outcome = .panic := by
  -- an error never leaves the agent
  rcases handled_answered crates info w buf with ⟨-, reply, hreply⟩ | ⟨-, hpanic⟩
  · simp [hreply, Outcome.toOption]
  · simp [hpanic, Outcome.toOption]

theorem follow_append {outcomes : Stream' Bool} {l l' : List Bool} :
    Follow outcomes (l ++ l') ↔ Follow outcomes l ∧ Follow (outcomes.drop l.length) l' := by
  rw [Follow, Follow, Follow, List.length_append, Stream'.take_add]
  constructor
  · intro h
    exact List.append_inj h (Stream'.length_take _ _).symm
  · rintro ⟨hl, hl'⟩
    rw [← hl, ← hl']

/-- Saves that follow the same outcomes end the same. -/
theorem saveOk_iff_of_follow {crates : Crates} {info : RequestInfo} {w₁ w₂ : World} {buf : Bytes}
    {outcomes : Stream' Bool} (h : LookAlike w₁ w₂)
    (h₁ : Follow outcomes (savesIn (handled crates info w₁ buf).events))
    (h₂ : Follow outcomes (savesIn (handled crates info w₂ buf).events)) :
    ∀ keyPair, addedBy buf = some keyPair → keyPair.publicKey ∉ w₁.publicKeys →
      (w₁.SaveOk crates keyPair ↔ w₂.SaveOk crates keyPair) := by
  intro keyPair hadd hnew
  have hnew' : keyPair.publicKey ∉ w₂.publicKeys := fun hmem =>
    hnew ((mem_publicKeys_of_lookAlike h).2 hmem)
  rw [handled_of_new hadd hnew] at h₁
  rw [handled_of_new hadd hnew'] at h₂
  have hsave : decide (w₁.SaveOk crates keyPair) = decide (w₂.SaveOk crates keyPair) :=
    List.singleton_inj.1 (h₁.trans h₂.symm)
  exact decide_eq_decide.1 hsave

/-- What is seen of the first request, and of the others under the mutex that it leaves. -/
theorem observe_cons (crates : Crates) (w : World) (call : Call) (calls : List Call) :
    observe crates { world := w, poisoned := false } (call :: calls) =
      let r := handled crates call.info w call.buf
      let rest := observe crates
        { world := r.world, poisoned := r.outcome.toOption.isNone } calls
      ({ reply := r.outcome.toOption, asked := askedIn w.config.keys r.events,
         saved := savesIn r.events } :: rest.1, rest.2) := by
  rw [observe, lockAndHandle_eq]
  rfl

/-- **Private keys do not leak.** On the same requests, from lists that show the same public keys
and names, with the same answers of the user and saves that end the same, two runs show the same
dialogs and give the same replies but for the confirmed signatures, and end with lists that show
the same. -/
theorem private_keys_do_not_leak (crates : Crates) (calls : List Call) (poisoned : Bool)
    (w₁ w₂ : World) (outcomes : Stream' Bool) (h : LookAlike w₁ w₂)
    (h₁ : Follow outcomes
      ((observe crates { world := w₁, poisoned } calls).1.flatMap Seen.saved))
    (h₂ : Follow outcomes
      ((observe crates { world := w₂, poisoned } calls).1.flatMap Seen.saved)) :
    List.Forall₂ SameButSignature (observe crates { world := w₁, poisoned } calls).1
        (observe crates { world := w₂, poisoned } calls).1 ∧
      LookAlike (observe crates { world := w₁, poisoned } calls).2.world
        (observe crates { world := w₂, poisoned } calls).2.world := by
  induction calls generalizing poisoned w₁ w₂ outcomes with
  | nil => exact ⟨List.Forall₂.nil, h⟩
  | cons call calls ih =>
      cases poisoned with
      | true =>
          -- every request panics at the lock
          obtain ⟨hseen, hafter⟩ := ih true w₁ w₂ outcomes h h₁ h₂
          exact ⟨List.Forall₂.cons ⟨rfl, fun _ => rfl⟩ hseen, hafter⟩
      | false =>
          simp only [observe_cons, List.flatMap_cons, follow_append] at h₁ h₂ ⊢
          have hrun : SameRun w₁ w₂ (handled crates call.info w₁ call.buf)
              (handled crates call.info w₂ call.buf) :=
            handled_lookAlike h call.buf (saveOk_iff_of_follow h h₁.1 h₂.1)
          have hlock : (handled crates call.info w₁ call.buf).outcome.toOption.isNone =
              (handled crates call.info w₂ call.buf).outcome.toOption.isNone := by
            rw [Bool.eq_iff_iff, isNone_toOption_handled_iff, isNone_toOption_handled_iff]
            exact hrun.ends
          -- the same saves are used up, so the rest follows the same outcomes
          rw [← hlock, ← hrun.saved] at h₂
          rw [← hlock]
          obtain ⟨hseen, hafter⟩ := ih _ _ _ _ hrun.after h₁.2 h₂.2
          refine ⟨List.Forall₂.cons ⟨hrun.asked, ?_⟩ hseen, hafter⟩
          intro hno
          have hanswers : ∀ asked ∈ askedIn w₁.config.keys
              (handled crates call.info w₁ call.buf).events, asked.answer = false := by
            intro asked hasked
            by_contra hyes
            exact hno ⟨asked, hasked, by simpa using hyes⟩
          exact congrArg Outcome.toOption (hrun.outcome hanswers)

/-- A listing, a signature and an addition. -/
def smallCalls : List Call :=
  [⟨⟨"Pipe", none⟩, [sshAgentcRequestIdentities]⟩,
    ⟨⟨"Pipe", none⟩, signRequestMessage smallBlob [2] 4⟩,
    ⟨⟨"Unix", none⟩, addIdentityRequest { smallKey with e := 7 } "b"⟩]

/-- Two keys with different private exponents. -/
theorem private_keys_do_not_leak_small :
    List.Forall₂ SameButSignature
      (observe Reference.crates { world := holding [smallPair smallKey "a"], poisoned := false }
        smallCalls).1
      (observe Reference.crates
        { world := holding [smallPair { smallKey with d := 5 } "a"], poisoned := false }
        smallCalls).1 := by
  have h₁ : Follow (Stream'.const true) ((observe Reference.crates
      { world := holding [smallPair smallKey "a"], poisoned := false }
      smallCalls).1.flatMap Seen.saved) := by decide +kernel
  have h₂ : Follow (Stream'.const true) ((observe Reference.crates
      { world := holding [smallPair { smallKey with d := 5 } "a"], poisoned := false }
      smallCalls).1.flatMap Seen.saved) := by decide +kernel
  have h : LookAlike (holding [smallPair smallKey "a"])
      (holding [smallPair { smallKey with d := 5 } "a"]) := ⟨by decide +kernel, rfl⟩
  exact (private_keys_do_not_leak Reference.crates smallCalls false _ _ _ h h₁ h₂).1

end SshKeys
