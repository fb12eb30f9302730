import SshKeys.Pageant
import SshKeys.Reply

/-!
# What a Pageant client finds

The front of the mapping after a `WM_COPYDATA` message whose window procedure returned `1`. The
result does not depend on what became of the replies: they may be too long for the mapping, and
there are none if the mapping does not begin with a complete frame.

`pageant_client_finds_reply_iff` says when the client finds a reply, by the frames of the mapping
and by the sizes of the replies, which depend on the agent's state (`replySize`).
-/

set_option autoImplicit false

namespace SshKeys

open Lib

/-- If the window procedure returns `1`, then what it has copied to the front of the mapping begins
with a complete reply, which is a failure or the agent's reply to the request at the front of the
mapping. -/
def FindsReply (crates : Crates) (client : PageantClient) (s : Guarded) (mapping : Bytes) : Prop :=
  (wndProc crates client s mapping).result = .returned 1 →
    ∃ reply behind, reply.length < 2 ^ 32 ∧
      (wndProc crates client s mapping).written = frame reply ++ behind ∧
      (reply = [sshAgentFailure] ∨
        ∃ m tail info, m ≠ [] ∧ m.length < 2 ^ 32 ∧ mapping = frame m ++ tail ∧
          (Agent.handleRequest crates m info s.mutex.world).outcome = .ok reply)

/-! ## The sizes of replies -/

/-- What a key takes in a listing. -/
def entrySize (keyPair : KeyPair) : Nat :=
  match keyPair.publicKey.encode with
  | .ok blob => 8 + blob.length + (utf8 keyPair.name).length
  | _ => 0

/-- The size of the reply to a request in the state `w`. -/
def replySize (crates : Crates) (w : World) (buf : Bytes) : Nat :=
  match Command.parse buf with
  | .ok .requestIdentities => 5 + (w.config.keys.map entrySize).sum
  | .ok (.signRequest publicKey msg flags) =>
      match Agent.getKey w.config publicKey with
      | none => 1
      | some (keyPair, _) =>
          if w.confirms.head then
            match (keyPair.privateKey.sign crates.toOpenssl msg flags).toOption with
            | some sig => 5 + sig.length
            | none => 1
          else 1
  | _ => 1

/-- The size of the replies to the requests, with the length in front of each. Who asks changes
none of them. -/
def repliesSize (crates : Crates) : World → List Bytes → Nat
  | _, [] => 0
  | w, m :: bodies => 4 + replySize crates w m +
      repliesSize crates (handled crates (pageantInfo none) w m).world bodies

theorem length_flatMap_writeEntry {keys : List KeyPair} {entries : List (Bytes × Bytes)}
    (h : Listed keys entries) :
    (entries.flatMap writeEntry).length = (keys.map entrySize).sum := by
  induction h with
  | nil => rfl
  | @cons keyPair entry keys entries hentry _ ih =>
      obtain ⟨hblob, hname⟩ := hentry
      have hsize : (writeEntry entry).length = entrySize keyPair := by
        simp only [writeEntry, List.length_append, length_writeString, entrySize, hblob, hname]
        omega
      rw [List.flatMap_cons, List.length_append, ih, hsize, List.map_cons, List.sum_cons]

section Size

variable {crates : Crates} {info : RequestInfo} {w : World} {buf reply : Bytes}

theorem length_reply (h : (handled crates info w buf).outcome = .ok reply) :
    reply.length = replySize crates w buf := by
  rw [handled] at h
  rw [replySize]
  cases hparse : Command.parse buf with
  | err e =>
      rw [hparse] at h
      rw [← Outcome.ok.inj h]
      rfl
  | panic =>
      rw [hparse] at h
      cases h
  | ok command =>
      rw [hparse] at h
      cases command with
      | requestIdentities =>
          obtain ⟨entries, hlisted, rfl⟩ := identitiesAnswer_eq_ok h
          simp only [Reply.write, List.length_cons, List.length_append, length_writeU32,
            length_flatMap_writeEntry hlisted]
          omega
      | addIdentity keyPair =>
          have hadding := adding_perform crates info w keyPair
          simp only at h ⊢
          generalize perform crates info w (.addIdentity keyPair) = r at h hadding
          -- one byte, a success or a failure
          cases hadding with
          | present hmem => exact congrArg List.length (Outcome.ok.inj h).symm
          | saved hnew hsave => exact congrArg List.length (Outcome.ok.inj h).symm
          | unsaved hnew hsave => exact congrArg List.length (Outcome.ok.inj h).symm
      | signRequest publicKey msg flags =>
          have hsigning := signing_perform crates info w publicKey msg flags
          simp only at h ⊢
          generalize perform crates info w (.signRequest publicKey msg flags) = r at h hsigning
          cases hsigning with
          | unknown hget =>
              rw [← Outcome.ok.inj h, hget]
              rfl
          | refused hget hyes =>
              rw [← Outcome.ok.inj h]
              simp [hget, hyes]
          | failed hget hyes hsign =>
              rw [← Outcome.ok.inj h]
              simp [hget, hyes, hsign]
          | signed hget hyes hsign =>
              rw [← Outcome.ok.inj h]
              simp only [hget, hyes, hsign, if_true, List.length_cons, length_writeString]
              omega

/-- Only a failure begins like one. -/
theorem eq_failure_of_head (h : (handled crates info w buf).outcome = .ok reply)
    (hhead : reply.head? = some sshAgentFailure) : reply = [sshAgentFailure] := by
  obtain ⟨r, -, rfl⟩ := exists_answers_of_handled h
  rw [Reply.head?_write, Option.some.injEq] at hhead
  cases r with
  | failure => rfl
  | success => cases hhead
  | identities entries => cases hhead
  | signResponse algorithm signature => cases hhead

end Size

/-! ## The loop over a mapping -/

/-- The replies to the requests, one after the other. -/
inductive Replies (crates : Crates) (info : RequestInfo) : World → List Bytes → Bytes → Prop where
  | nil {w : World} : Replies crates info w [] []
  | cons {w : World} {m reply output : Bytes} {bodies : List Bytes} :
      (handled crates info w m).outcome = .ok reply →
      Replies crates info (handled crates info w m).world bodies output →
      Replies crates info w (m :: bodies) (writeString reply ++ output)

theorem length_of_replies {crates : Crates} {info : RequestInfo} {w : World} {bodies : List Bytes}
    {output : Bytes} (h : Replies crates info w bodies output) :
    output.length = repliesSize crates w bodies := by
  induction h with
  | nil => rfl
  | @cons w m _ _ _ hreply _ ih =>
      rw [List.length_append, length_writeString, length_reply hreply, ih, repliesSize,
        (handled_info crates info (pageantInfo none) w m).2]

/-- Without a bound on the replies, a loop whose requests are answered writes them all, -/
theorem run_of_answered {crates : Crates} {info : RequestInfo} {input rest : Bytes}
    {bodies : List Bytes} (h : Frames input bodies rest) :
    ∀ (w : World) (rw : ReadWrite), rw.input = input → rw.room = none →
      AllAnswered crates w (bodies.map (Call.mk info)) →
      ∃ output conn result mutex events, Replies crates info w bodies output ∧
        (connectionHandler crates).run ({ info, rw, phase := .reading },
          { world := w, poisoned := false }) = ((conn, mutex), events) ∧
        conn.phase = .closed result ∧ result ≠ .panic ∧
        conn.rw.output = rw.output ++ output := by
  -- along the frames, with the agent's state and what is written carried on
  induction h with
  | @stop rest hstop =>
      intro w rw hinput _ _
      obtain ⟨input, result, hresult, hrun⟩ := run_of_stops crates info
        { world := w, poisoned := false } (hinput ▸ hstop : Stops rw.input)
      exact ⟨[], _, result, _, _, .nil, hrun, rfl, hresult, (List.append_nil _).symm⟩
  | @frame m input rest bodies hne hlt _ ih =>
      intro w rw hinput hroom hans
      obtain ⟨hm, hans⟩ := allAnswered_cons.1 hans
      obtain ⟨reply, hreply⟩ := (handleRequest_returns_iff crates info w m).2 hm
      obtain ⟨rw', hbehind, hroom', hput, hrun⟩ := run_of_round crates hne hlt hinput hroom
        (lockAndHandle_of_ok ⟨info, m⟩ hreply)
      obtain ⟨output, conn, result, mutex, events, hreplies, hrest, hphase, hresult, houtput⟩ :=
        ih _ rw' hbehind hroom' hans
      rw [hrest] at hrun
      refine ⟨writeString reply ++ output, conn, result, mutex, _, ?_, hrun, hphase, hresult, ?_⟩
      · rw [outcome_handleRequest] at hreply
        exact .cons hreply hreplies
      · rw [houtput, hput, List.append_assoc]

/-- and one with a request that is not answered panics. -/
theorem run_of_unanswered {crates : Crates} {info : RequestInfo} {input rest : Bytes}
    {bodies : List Bytes} (h : Frames input bodies rest) :
    ∀ (w : World) (rw : ReadWrite), rw.input = input → rw.room = none →
      ¬ AllAnswered crates w (bodies.map (Call.mk info)) →
      ∃ conn mutex events, (connectionHandler crates).run ({ info, rw, phase := .reading },
        { world := w, poisoned := false }) = ((conn, mutex), events) ∧
        conn.phase = .closed .panic := by
  induction h with
  | stop hstop =>
      intro w rw _ _ hnot
      exact absurd ⟨by simp [serveAll], rfl⟩ hnot
  | @frame m input rest bodies hne hlt _ ih =>
      intro w rw hinput hroom hnot
      by_cases hm : Answerable w m
      · obtain ⟨reply, hreply⟩ := lockAndHandle_of_answerable crates ⟨info, m⟩ hm
        obtain ⟨rw', hbehind, hroom', -, hrun⟩ :=
          run_of_round crates hne hlt hinput hroom hreply
        have hrest : ¬ AllAnswered crates (handled crates info w m).world
            (bodies.map (Call.mk info)) := fun hans => hnot (allAnswered_cons.2 ⟨hm, hans⟩)
        obtain ⟨conn, mutex, events, hpanic, hphase⟩ := ih _ rw' hbehind hroom' hrest
        rw [hpanic] at hrun
        exact ⟨conn, mutex, _, hrun, hphase⟩
      · have hlock := lockAndHandle_of_not_answerable crates ⟨info, m⟩ hm
        exact ⟨_, _, _, run_of_panic crates hne hlt hinput hlock, rfl⟩

/-- Whether requests are harmless does not depend on who sends them. -/
theorem harmlessFrom_info (crates : Crates) (info info' : RequestInfo) (w : World)
    (bodies : List Bytes) :
    HarmlessFrom w (bodies.map (Call.mk info)) ↔ HarmlessFrom w (bodies.map (Call.mk info')) := by
  induction bodies generalizing w with
  | nil => exact Iff.rfl
  | cons m bodies ih =>
      simp only [List.map_cons, harmlessFrom_cons crates]
      rw [ih, (handled_info crates info info' w m).2]

/-! ## When the client finds a reply -/

/-- The window procedure does not return: the client is not identified, or there is a request and
the mutex is kept or poisoned, or a request panics. -/
def Unreturned (client : PageantClient) (s : Guarded) (bodies : List Bytes) : Prop :=
  ¬ client.Identified s ∨ (bodies ≠ [] ∧ ¬ s.Usable) ∨
    (s.Usable ∧ ¬ HarmlessFrom s.mutex.world (bodies.map (Call.mk (pageantInfo none))))

/-- The message has a request, and its replies fit into the mapping. -/
def FirstAnswered (crates : Crates) (w : World) (mapping : Bytes) (bodies : List Bytes) : Prop :=
  ∃ m more, bodies = m :: more ∧ replySize crates w m < 2 ^ 32 ∧
    repliesSize crates w bodies ≤ mapping.length

section Message

variable {crates : Crates} {client : PageantClient} {requester : Option RequesterInfo}
  {s : Guarded} {mapping : Bytes}

variable (crates requester s) in
/-- Where the message has no request, nothing is copied. -/
theorem serveMapping_of_no_request (hstop : Stops mapping) :
    (serveMapping crates requester s mapping).result = .returned 1 ∧
      (serveMapping crates requester s mapping).written = [] := by
  have hinput : Stops (bufReadWrite mapping).input := hstop
  obtain ⟨input, result, hresult, hrun⟩ :=
    run_of_stops crates (pageantInfo requester) s.mutex hinput
  obtain ⟨input', result', -, hread⟩ := readFrame_of_stops (pageantConn requester mapping) hstop
  have hwaits : (s.held && (pageantConn requester mapping).readFrame.phase.locks) = false := by
    rw [hread]
    exact Bool.and_false _
  have hnothing : copied [] mapping = [] := if_neg (Nat.not_lt_zero _)
  rw [serveMapping_of_closed hwaits hrun rfl hresult]
  exact ⟨rfl, hnothing⟩

/-- Where nothing is copied, there is no reply to find. -/
theorem not_findsReply_of_nothing (hone : (wndProc crates client s mapping).result = .returned 1)
    (hnothing : (wndProc crates client s mapping).written = []) :
    ¬ FindsReply crates client s mapping := by
  intro hfinds
  obtain ⟨reply, behind, -, hwritten, -⟩ := hfinds hone
  rw [hnothing] at hwritten
  have hlength := congrArg List.length hwritten
  simp only [frame, List.length_nil, List.length_append, length_writeU32] at hlength
  omega

/-- The window procedure does not return the result. -/
theorem result_of_unreturned {bodies : List Bytes} {rest : Bytes}
    (h : Frames mapping bodies rest) (hunreturned : Unreturned client s bodies) :
    (wndProc crates client s mapping).result ≠ .returned 1 := by
  by_cases hidentified : client.Identified s
  swap
  · exact (wndProc_of_not_identified crates hidentified mapping).1 1
  obtain ⟨requester, hserve⟩ := exists_wndProc_of_identified crates hidentified mapping
  rw [hserve]
  rcases hunreturned with hnot | ⟨hne, husable⟩ | ⟨husable, hharm⟩
  · exact absurd hidentified hnot
  · cases h with
    | stop hstop => exact absurd rfl hne
    | frame hbody hlt _ => exact (serveMapping_of_not_usable hbody hlt husable).1
  · obtain ⟨w, rfl⟩ := exists_start_of_usable husable
    rw [harmlessFrom_info crates _ (pageantInfo requester),
      ← allAnswered_iff_harmlessFrom crates] at hharm
    obtain ⟨conn, mutex, events, hrun, hphase⟩ :=
      run_of_unanswered h w (bufReadWrite mapping) rfl rfl hharm
    rw [serveMapping_of_panic rfl hrun hphase]
    exact nofun

section Answered

variable {w : World} {m reply output tail : Bytes}

/-- Replies that fit are read from the front of the mapping, if the length of the first fits its
prefix. -/
theorem findsReply_of_fits (hne : m ≠ []) (hlt : m.length < 2 ^ 32)
    (hfront : mapping = frame m ++ tail)
    (hreply : (handled crates (pageantInfo requester) s.mutex.world m).outcome = .ok reply)
    (hshort : reply.length < 2 ^ 32)
    (hwritten : (wndProc crates client s mapping).written = writeString reply ++ output) :
    FindsReply crates client s mapping := by
  intro _
  refine ⟨reply, output, hshort, ?_, Or.inr ⟨m, tail, pageantInfo requester, hne, hlt, hfront, ?_⟩⟩
  · rw [hwritten, writeString_eq_frame hshort]
  · rw [outcome_handleRequest, hreply]

/-- The client finds no reply in replies that begin with one that is too long for its prefix. -/
theorem short_of_findsReply (hlt : m.length < 2 ^ 32) (hfront : mapping = frame m ++ tail)
    (hreply : (handled crates (pageantInfo requester) s.mutex.world m).outcome = .ok reply)
    (hone : (wndProc crates client s mapping).result = .returned 1)
    (hwritten : (wndProc crates client s mapping).written = writeString reply ++ output)
    (h : FindsReply crates client s mapping) : reply.length < 2 ^ 32 := by
  obtain ⟨reply', behind, hlt', hfound, hwhich⟩ := h hone
  rw [hwritten] at hfound
  rcases hwhich with rfl | ⟨m', tail', info, -, hltm, hfront', hreply'⟩
  · -- the first byte behind the length is that of a failure
    have hdrop := congrArg (fun bs => (bs.drop 4).head?) hfound
    have hne : reply ≠ [] := by
      obtain ⟨r, -, rfl⟩ := exists_answers_of_handled hreply
      intro hnil
      have hhead := Reply.head?_write r
      rw [hnil] at hhead
      cases hhead
    obtain ⟨b, bs, rfl⟩ := List.exists_cons_of_ne_nil hne
    have hhead : (b :: bs).head? = some sshAgentFailure := hdrop
    rw [eq_failure_of_head hreply hhead]
    decide
  · -- the request at the front is the same, and so is its reply
    obtain ⟨rfl, -⟩ := frame_append_inj hlt hltm (hfront.symm.trans hfront')
    rw [outcome_handleRequest, (handled_info crates info (pageantInfo requester) _ m).1, hreply,
      Outcome.ok.injEq] at hreply'
    rw [hreply']
    exact hlt'

end Answered

/-- A message whose requests are all answered. -/
theorem findsReply_iff_of_answered {w : World} {bodies : List Bytes} {rest : Bytes}
    (h : Frames mapping bodies rest)
    (hserve : wndProc crates client (Guarded.start w) mapping =
      serveMapping crates requester (Guarded.start w) mapping)
    (hans : AllAnswered crates w (bodies.map (Call.mk (pageantInfo requester)))) :
    FindsReply crates client (Guarded.start w) mapping ↔ FirstAnswered crates w mapping bodies := by
  obtain ⟨output, conn, result, mutex, events, hreplies, hrun, hphase, hresult, houtput⟩ :=
    run_of_answered h w (bufReadWrite mapping) rfl rfl hans
  have hclosed := hserve.trans (serveMapping_of_closed rfl hrun hphase hresult)
  have hone : (wndProc crates client (Guarded.start w) mapping).result = .returned 1 := by
    rw [hclosed]
  have hwritten : (wndProc crates client (Guarded.start w) mapping).written =
      copied output mapping := by
    rw [hclosed, houtput]
    rfl
  have hsize := length_of_replies hreplies
  by_cases hfits : output.length ≤ mapping.length
  swap
  -- replies that do not fit are dropped
  · apply iff_of_false
    · apply not_findsReply_of_nothing hone
      rw [hwritten]
      exact if_pos (Nat.not_le.1 hfits)
    · rintro ⟨m, more, -, -, hle⟩
      exact hfits (hsize ▸ hle)
  rw [copied, if_neg (Nat.not_lt.2 hfits)] at hwritten
  cases h with
  | stop hstop =>
      cases hreplies
      apply iff_of_false (not_findsReply_of_nothing hone hwritten)
      rintro ⟨m, more, hnil, -⟩
      cases hnil
  | @frame m input rest bodies hne hlt _ =>
      cases hreplies with
      | @cons _ _ reply output _ hreply hmore =>
          constructor
          · intro hfinds
            have hshort := short_of_findsReply hlt rfl hreply hone hwritten hfinds
            rw [length_reply hreply] at hshort
            exact ⟨m, bodies, rfl, hshort, hsize ▸ hfits⟩
          · rintro ⟨m', more, hcons, hshort, -⟩
            obtain ⟨rfl, -⟩ := List.cons.inj hcons
            rw [← length_reply hreply] at hshort
            exact findsReply_of_fits hne hlt rfl hreply hshort hwritten

/-- The condition, by the frames of the mapping. -/
theorem findsReply_iff_of_frames {bodies : List Bytes} {rest : Bytes}
    (h : Frames mapping bodies rest) :
    FindsReply crates client s mapping ↔ Unreturned client s bodies ∨
      FirstAnswered crates s.mutex.world mapping bodies := by
  by_cases hunreturned : Unreturned client s bodies
  · refine iff_of_true ?_ (Or.inl hunreturned)
    exact fun hone => absurd hone (result_of_unreturned h hunreturned)
  rw [or_iff_right hunreturned]
  simp only [Unreturned, not_or, not_and, not_not] at hunreturned
  obtain ⟨hidentified, hrequest, hharm⟩ := hunreturned
  obtain ⟨requester, hserve⟩ := exists_wndProc_of_identified crates hidentified mapping
  by_cases husable : s.Usable
  · obtain ⟨w, rfl⟩ := exists_start_of_usable husable
    have hans : AllAnswered crates w (bodies.map (Call.mk (pageantInfo requester))) := by
      rw [allAnswered_iff_harmlessFrom, harmlessFrom_info crates _ (pageantInfo none)]
      exact hharm husable
    exact findsReply_iff_of_answered h hserve hans
  -- a mutex that is not locked, as there is no request
  · have hnil : bodies = [] := by
      by_contra hne
      exact husable (hrequest hne)
    subst hnil
    cases h with
    | stop hstop =>
        obtain ⟨hone, hnothing⟩ := serveMapping_of_no_request crates requester s hstop
        apply iff_of_false (not_findsReply_of_nothing (hserve ▸ hone) (hserve ▸ hnothing))
        rintro ⟨m, more, hnil, -⟩
        cases hnil

end Message

/-- **When a Pageant client finds a reply.** A client whose message was acknowledged finds a
complete reply at the front of its mapping exactly when the window procedure does not return, or
the mapping begins with a complete request and the replies fit. -/
theorem pageant_client_finds_reply_iff (crates : Crates) (client : PageantClient) (s : Guarded)
    (mapping : Bytes) :
    FindsReply crates client s mapping ↔
      ∃ bodies rest, Frames mapping bodies rest ∧ (Unreturned client s bodies ∨
        FirstAnswered crates s.mutex.world mapping bodies) := by
  constructor
  · intro hfinds
    obtain ⟨bodies, rest, h⟩ := exists_frames mapping
    exact ⟨bodies, rest, h, (findsReply_iff_of_frames h).1 hfinds⟩
  · rintro ⟨bodies, rest, h, hor⟩
    exact (findsReply_iff_of_frames h).2 hor

/-- A page that declares a request of no bytes is acknowledged and left as it was. -/
theorem empty_request_is_acknowledged :
    ¬ FindsReply Reference.crates consoleClient (Guarded.start (emptyWorld true .none))
      (writeU32 0 ++ List.replicate 4092 0) := by
  obtain ⟨requester, hserve⟩ := exists_wndProc_of_identified Reference.crates
    (identified_consoleClient (emptyWorld true .none)) (writeU32 0 ++ List.replicate 4092 0)
  obtain ⟨hone, hnothing⟩ := serveMapping_of_no_request Reference.crates requester
    (Guarded.start (emptyWorld true .none)) (.zeroLength (List.replicate 4092 0))
  exact not_findsReply_of_nothing (hserve ▸ hone) (hserve ▸ hnothing)

end SshKeys
