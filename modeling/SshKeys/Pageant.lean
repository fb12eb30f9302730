import SshKeys.Connection
import SshKeys.Describe
import SshKeys.MappingOwner

/-!
# Pageant messages

One `WM_COPYDATA` message, after `wnd_proc` in `platform/win/pageant/mod.rs`. The window procedure
first looks for the process that holds the mapping and describes it under the mutex of the agent,
which may panic or never come to its end. The request stands at the front of a file mapping that
the client shares, and the stream loop of `Connection` runs over the whole mapping, so a message is
one request only if what follows the request does not look like another one. `oneRequest_iff` is the
exact condition.
-/

set_option autoImplicit false

namespace SshKeys

open Lib

/-! ## The requester -/

/-- What a message and the system say about the client that sent it. -/
structure PageantClient where
  /-- The C string at `lpData`. -/
  mappingName : Bytes
  /-- The handle table, if the query for it succeeds. -/
  table : Option (List Handle)
  /-- `GetCurrentProcessId` -/
  me : Pid
  sys : Desktop

/-- The requester of a message: the process that holds the mapping is described under the mutex. -/
def PageantClient.requester (client : PageantClient) (s : Guarded) : Requested :=
  -- `to_str().unwrap()`
  match fromUtf8 client.mappingName with
  | none => .unwound s.mutex
  | some mappingName =>
      match findMemoryMapOwnerProcess client.table client.me mappingName with
      | .ok (some processId) => s.requester client.sys processId
      | .ok none => .found none
      | .err _ => .found none
      | .panic => .unwound s.mutex

/-- The handle at which the search for the mapping ends. -/
def PageantClient.EndsAt (client : PageantClient) (mappingName : String) (handle : Handle) : Prop :=
  ∃ before after, client.table = some (before ++ handle :: after) ∧
    (∀ h ∈ before, Passed client.me mappingName h) ∧ ¬ Passed client.me mappingName handle

/-- The name of the mapping is text, and if the search for it ends at a handle, then the name of
the handle is text, the mutex is free and not poisoned, and the process can be described. -/
def PageantClient.Identified (client : PageantClient) (s : Guarded) : Prop :=
  ∃ mappingName, fromUtf8 client.mappingName = some mappingName ∧
    ∀ handle, client.EndsAt mappingName handle →
      IsText handle.name ∧ s.Usable ∧ client.sys.Describes handle.uniqueProcessId

section Requester

variable {client : PageantClient} {mappingName : String} {s : Guarded}
  (hname : fromUtf8 client.mappingName = some mappingName)

include hname

/-- No process is described if the search ends at no handle. -/
theorem requester_of_not_endsAt (h : ∀ handle, ¬ client.EndsAt mappingName handle) :
    client.requester s = .found none := by
  rw [PageantClient.requester, hname]
  simp only
  cases htable : client.table with
  | none => rfl
  | some handles =>
      rcases passed_or_first client.me mappingName handles with
        hall | ⟨before, handle, after, rfl, hfirst⟩
      · have hnone : findMemoryMapOwnerProcess (some handles) client.me mappingName = .ok none :=
          findOwner_eq_none_iff.2 hall
        rw [hnone]
      · exact absurd ⟨before, after, htable, hfirst⟩ (h handle)

/-- A handle whose name is no text ends the search with a panic. -/
theorem requester_of_no_text {handle : Handle} (h : client.EndsAt mappingName handle)
    (htext : ¬ IsText handle.name) : client.requester s = .unwound s.mutex := by
  obtain ⟨before, after, htable, hbefore, hhandle⟩ := h
  have hnone : Utf16.decode handle.name = none := by
    rw [Option.eq_none_iff_forall_ne_some]
    intro chars hchars
    exact htext ⟨chars, Utf16.decode_eq_some_iff.1 hchars⟩
  obtain ⟨hreadable, -⟩ := (passed_or client.me mappingName handle).resolve_left hhandle
  have hpanic : findMemoryMapOwnerProcess client.table client.me mappingName = .panic := by
    rw [htable]
    exact (findOwner_append_of_passed hbefore _).trans
      (findOwner_of_no_text hreadable hnone after)
  rw [PageantClient.requester, hname]
  simp only [hpanic]

/-- Otherwise the process of the handle is described under the mutex. -/
theorem requester_of_text {handle : Handle} (h : client.EndsAt mappingName handle)
    (htext : IsText handle.name) :
    client.requester s = s.requester client.sys handle.uniqueProcessId := by
  obtain ⟨before, after, htable, hbefore, hhandle⟩ := h
  obtain ⟨chars, hchars⟩ := htext
  obtain ⟨hreadable, hends⟩ := (passed_or client.me mappingName handle).resolve_left hhandle
  have hmatches : Matches mappingName handle := by
    refine hends.resolve_right ?_
    rw [hchars, Utf16.decode_encode]
    simp
  have hsome : findMemoryMapOwnerProcess client.table client.me mappingName =
      .ok (some handle.uniqueProcessId) := by
    rw [htable]
    exact (findOwner_append_of_passed hbefore _).trans
      (findOwner_of_matches hreadable hmatches after)
  rw [PageantClient.requester, hname]
  simp only [hsome]

end Requester

/-- **The requester of a message** is found, or known not to be found, exactly when the client is
identified. -/
theorem exists_requester_iff (client : PageantClient) (s : Guarded) :
    (∃ requester, client.requester s = .found requester) ↔ client.Identified s := by
  cases hname : fromUtf8 client.mappingName with
  | none =>
      apply iff_of_false
      · rw [PageantClient.requester, hname]
        simp
      · rintro ⟨mappingName, hsome, -⟩
        rw [hname] at hsome
        cases hsome
  | some mappingName =>
      have hidentified : client.Identified s ↔ ∀ handle, client.EndsAt mappingName handle →
          IsText handle.name ∧ s.Usable ∧ client.sys.Describes handle.uniqueProcessId := by
        rw [PageantClient.Identified, hname]
        simp
      rw [hidentified]
      constructor
      · rintro ⟨requester, hfound⟩ handle hends
        have htext : IsText handle.name := by
          by_contra htext
          rw [requester_of_no_text hname hends htext] at hfound
          cases hfound
        rw [requester_of_text hname hends htext] at hfound
        rcases requester_cases s client.sys handle.uniqueProcessId with
          ⟨husable, hdescribes, -⟩ | ⟨-, hnever, -⟩
        · exact ⟨htext, husable, hdescribes⟩
        · exact absurd hfound (hnever requester)
      · intro hall
        by_cases hends : ∃ handle, client.EndsAt mappingName handle
        · obtain ⟨handle, hends⟩ := hends
          obtain ⟨htext, hboth⟩ := hall handle hends
          rw [requester_of_text hname hends htext]
          rcases requester_cases s client.sys handle.uniqueProcessId with
            ⟨-, -, hfound, -⟩ | ⟨hnot, -⟩
          · exact hfound
          · exact absurd hboth hnot
        · exact ⟨none, requester_of_not_endsAt hname (not_exists.1 hends)⟩

/-! ## The message -/

/-- `BufReadWrite`: a cursor over the mapping, and a vector for the replies. -/
def bufReadWrite (mapping : Bytes) : ReadWrite :=
  { input := mapping, atEnd := .unexpectedEof, output := [], room := none }

/-- How the window procedure ends. -/
inductive MessageEnd where
  | returned (result : Int)
  | unwound
  | never
  deriving DecidableEq

/-- What a message leaves behind. -/
structure CopyData where
  result : MessageEnd
  /-- What is copied to the front of the mapping. -/
  written : Bytes
  mutex : AgentMutex
  events : List Event

/-- The mapping that held `mapping` before the message. -/
def CopyData.mapping (done : CopyData) (mapping : Bytes) : Bytes :=
  done.written ++ mapping.drop done.written.length

/-- What the agent is told about a message. -/
def pageantInfo (requester : Option RequesterInfo) : RequestInfo :=
  { channel := "Pageant", requester }

/-- The replies are dropped if they do not fit. -/
def copied (resp mapping : Bytes) : Bytes := if resp.length > mapping.length then [] else resp

/-- The connection of a message. -/
def pageantConn (requester : Option RequesterInfo) (mapping : Bytes) : Conn :=
  { info := pageantInfo requester, rw := bufReadWrite mapping, phase := .reading }

/-- The connection is about to lock the mutex. -/
def Phase.locks : Phase → Bool
  | .locking _ => true
  | _ => false

/-- `connection_handler` over the mapping, and the copy behind it. -/
def serveMapping (crates : Crates) (requester : Option RequesterInfo) (s : Guarded)
    (mapping : Bytes) : CopyData :=
  -- the first request waits for a mutex that is not released
  if s.held && (pageantConn requester mapping).readFrame.phase.locks then
    { result := .never, written := [], mutex := s.mutex, events := [] }
  else
    let done := (connectionHandler crates).run (pageantConn requester mapping, s.mutex)
    match done.1.1.phase with
    | .closed .panic => { result := .unwound, written := [], mutex := done.1.2, events := done.2 }
    | _ =>
        { result := .returned 1
          written := copied done.1.1.rw.output mapping
          mutex := done.1.2
          events := done.2 }

/-- `wnd_proc` on `WM_COPYDATA`. -/
def wndProc (crates : Crates) (client : PageantClient) (s : Guarded) (mapping : Bytes) : CopyData :=
  match client.requester s with
  | .found requester => serveMapping crates requester s mapping
  | .unwound mutex => { result := .unwound, written := [], mutex, events := [] }
  | .never => { result := .never, written := [], mutex := s.mutex, events := [] }

/-- A client that is not identified is not served. -/
theorem wndProc_of_not_identified (crates : Crates) {client : PageantClient} {s : Guarded}
    (h : ¬ client.Identified s) (mapping : Bytes) :
    (∀ result, (wndProc crates client s mapping).result ≠ .returned result) ∧
      (wndProc crates client s mapping).events = [] := by
  rw [wndProc]
  cases hrequester : client.requester s with
  | found requester => exact absurd ((exists_requester_iff client s).1 ⟨_, hrequester⟩) h
  | unwound mutex => exact ⟨fun _ => nofun, rfl⟩
  | never => exact ⟨fun _ => nofun, rfl⟩

theorem exists_wndProc_of_identified (crates : Crates) {client : PageantClient} {s : Guarded}
    (h : client.Identified s) (mapping : Bytes) :
    ∃ requester, wndProc crates client s mapping = serveMapping crates requester s mapping := by
  obtain ⟨requester, hrequester⟩ := (exists_requester_iff client s).2 h
  exact ⟨requester, by rw [wndProc, hrequester]⟩

section Served

variable {crates : Crates} {requester : Option RequesterInfo} {s : Guarded} {mapping : Bytes}

/-- Unless its first request waits for ever, the message is what the loop makes of it, -/
theorem serveMapping_of_closed {conn : Conn} {mutex : AgentMutex} {events : List Event}
    {result : Outcome Error Unit}
    (hwaits : (s.held && (pageantConn requester mapping).readFrame.phase.locks) = false)
    (hrun : (connectionHandler crates).run (pageantConn requester mapping, s.mutex) =
      ((conn, mutex), events)) (hphase : conn.phase = .closed result) (hresult : result ≠ .panic) :
    serveMapping crates requester s mapping =
      { result := .returned 1
        written := copied conn.rw.output mapping
        mutex
        events } := by
  rw [serveMapping, hwaits, hrun]
  cases result with
  | panic => exact absurd rfl hresult
  | ok u => simp [hphase]
  | err e => simp [hphase]

/-- and a panic of the loop unwinds out of the window procedure. -/
theorem serveMapping_of_panic {conn : Conn} {mutex : AgentMutex} {events : List Event}
    (hwaits : (s.held && (pageantConn requester mapping).readFrame.phase.locks) = false)
    (hrun : (connectionHandler crates).run (pageantConn requester mapping, s.mutex) =
      ((conn, mutex), events)) (hphase : conn.phase = .closed .panic) :
    serveMapping crates requester s mapping =
      { result := .unwound, written := [], mutex, events } := by
  rw [serveMapping, hwaits, hrun]
  simp [hphase]

end Served

/-- The agent handles exactly `m`, once, and a framed reply that fits replaces the front of the
mapping and nothing else. -/
structure OneRequest (crates : Crates) (client : PageantClient) (s : Guarded) (m mapping : Bytes) :
    Prop where
  handledOnce : handledBodies (wndProc crates client s mapping).events = [m]
  copied : ∀ info reply,
    (Agent.handleRequest crates m info s.mutex.world).outcome = .ok reply →
    (writeString reply).length ≤ mapping.length →
    (wndProc crates client s mapping).mapping mapping =
      writeString reply ++ mapping.drop (writeString reply).length

section FirstFrame

variable (crates : Crates) {m tail : Bytes} (hne : m ≠ []) (hlt : m.length < 2 ^ 32)

include hne hlt

/-- A request whose handling panics ends the loop. -/
theorem run_of_panic {info : RequestInfo} {rw : ReadWrite} {mutex mutex' : AgentMutex}
    {events : List Event} (hinput : rw.input = frame m ++ tail)
    (hlock : lockAndHandle crates mutex ⟨info, m⟩ = (none, mutex', events)) :
    (connectionHandler crates).run ({ info, rw, phase := .reading }, mutex) =
      (({ info, rw := { rw with input := tail }, phase := .closed .panic }, mutex'), events) := by
  have hread : (connectionHandler crates).step ({ info, rw, phase := .reading }, mutex) =
      some ((Conn.goto ⟨info, rw, .reading⟩ tail (.locking m), mutex), []) := by
    rw [← readFrame_of_frame ⟨info, rw, .reading⟩ hne hlt hinput]
    rfl
  have hstep : (connectionHandler crates).step
      (Conn.goto ⟨info, rw, .reading⟩ tail (.locking m), mutex) =
      some (({ info, rw := { rw with input := tail }, phase := .closed .panic }, mutex'),
        events) := by
    show connStep crates (Conn.goto ⟨info, rw, .reading⟩ tail (.locking m), mutex) = _
    rw [connStep]
    simp only [Conn.goto, hlock]
  have hstop : (connectionHandler crates).step
      ({ info, rw := { rw with input := tail }, phase := .closed .panic }, mutex') = none := rfl
  rw [Loop.run_of_step hread, Loop.run_of_step hstep, Loop.run_of_stop hstop, List.nil_append,
    List.append_nil]

/-- Where replies are not bounded, the loop goes on behind a frame that is answered. -/
theorem run_of_round {info : RequestInfo} {rw : ReadWrite} {mutex mutex' : AgentMutex}
    {reply : Bytes} {events : List Event}
    (hinput : rw.input = frame m ++ tail) (hroom : rw.room = none)
    (hreply : lockAndHandle crates mutex ⟨info, m⟩ = (some reply, mutex', events)) :
    ∃ rw' : ReadWrite, rw'.input = tail ∧ rw'.room = none ∧
      rw'.output = rw.output ++ writeString reply ∧
      (connectionHandler crates).run ({ info, rw, phase := .reading }, mutex) =
        (((connectionHandler crates).run (⟨info, rw', .reading⟩, mutex')).1,
          events ++ .reply reply ::
            ((connectionHandler crates).run (⟨info, rw', .reading⟩, mutex')).2) := by
  have hfits : Fits ({ rw with input := tail } : ReadWrite).room (writeString reply).length := by
    simp [Fits, hroom]
  refine ⟨({ rw with input := tail } : ReadWrite).put (writeString reply), rfl, ?_, ?_, ?_⟩
  · rw [ReadWrite.put, hroom]
    rfl
  · rw [ReadWrite.put, hroom]
    rfl
  · rw [run_of_frame hne hlt hinput hreply, run_of_fits hfits]

/-- The first frame is handled in any case, unless the mutex is poisoned. -/
theorem exists_handledBodies_run (info : RequestInfo) {rw : ReadWrite} (w : World)
    (hinput : rw.input = frame m ++ tail) :
    ∃ more, handledBodies ((connectionHandler crates).run
      ({ info, rw, phase := .reading }, { world := w, poisoned := false })).2 = m :: more := by
  by_cases h : Answerable w m
  · obtain ⟨reply, hreply⟩ := lockAndHandle_of_answerable crates ⟨info, m⟩ h
    rw [run_of_frame hne hlt hinput hreply, handledBodies_append, handledBodies_handleRequest]
    exact ⟨_, rfl⟩
  · have hlock := lockAndHandle_of_not_answerable crates ⟨info, m⟩ h
    rw [run_of_panic crates hne hlt hinput hlock, handledBodies_handleRequest]
    exact ⟨[], rfl⟩

variable {crates} {requester : Option RequesterInfo} {s : Guarded}

/-- A mutex that is kept or poisoned is not got by the first request. -/
theorem serveMapping_of_not_usable (h : ¬ s.Usable) :
    (serveMapping crates requester s (frame m ++ tail)).result ≠ .returned 1 ∧
      (serveMapping crates requester s (frame m ++ tail)).events = [] := by
  have hread : (pageantConn requester (frame m ++ tail)).readFrame.phase = .locking m := by
    rw [readFrame_of_frame (pageantConn requester (frame m ++ tail)) hne hlt rfl]
    rfl
  cases hheld : s.held with
  | true =>
      have hnever : serveMapping crates requester s (frame m ++ tail) =
          { result := .never, written := [], mutex := s.mutex, events := [] } := by
        rw [serveMapping, hheld, hread]
        rfl
      rw [hnever]
      exact ⟨nofun, rfl⟩
  | false =>
      have hpoisoned : s.mutex.poisoned = true := by
        by_contra hpoisoned
        exact h ⟨hheld, Bool.eq_false_iff.2 hpoisoned⟩
      have hlock : lockAndHandle crates s.mutex ⟨pageantInfo requester, m⟩ =
          (none, s.mutex, []) := if_pos hpoisoned
      have hrun := run_of_panic crates hne hlt
        (show (bufReadWrite (frame m ++ tail)).input = frame m ++ tail from rfl) hlock
      rw [serveMapping_of_panic (by rw [hheld]; rfl) hrun rfl]
      exact ⟨nofun, rfl⟩

variable {w : World}

/-- What is recorded when the first request panics: only its own events. -/
theorem serveMapping_of_not_answerable (h : ¬ Answerable w m) :
    handledBodies (serveMapping crates requester (Guarded.start w) (frame m ++ tail)).events =
      [m] := by
  have hlock := lockAndHandle_of_not_answerable crates ⟨pageantInfo requester, m⟩ h
  have hrun := run_of_panic crates hne hlt
    (show (bufReadWrite (frame m ++ tail)).input = frame m ++ tail from rfl) hlock
  rw [serveMapping_of_panic rfl hrun rfl]
  exact handledBodies_handleRequest crates m (pageantInfo requester) w

variable {reply : Bytes}
  (hreply : (Agent.handleRequest crates m (pageantInfo requester) w).outcome = .ok reply)

include hreply

/-- Where no further frame follows, the first request is all that is handled. -/
theorem serveMapping_of_stops (hstop : Stops tail) :
    (serveMapping crates requester (Guarded.start w) (frame m ++ tail)).written =
        copied (writeString reply) (frame m ++ tail) ∧
      handledBodies (serveMapping crates requester (Guarded.start w) (frame m ++ tail)).events =
        [m] := by
  have hinput : (bufReadWrite (frame m ++ tail)).input = frame m ++ tail := rfl
  have hlock := lockAndHandle_of_ok ⟨pageantInfo requester, m⟩ hreply
  obtain ⟨rw', hbehind, -, hput, hrun⟩ := run_of_round crates hne hlt hinput rfl hlock
  have houtput : rw'.output = writeString reply := hput
  obtain ⟨input, result, hresult, hend⟩ := run_of_stops crates (pageantInfo requester)
    { world := (handled crates (pageantInfo requester) w m).world, poisoned := false }
    (hbehind ▸ hstop : Stops rw'.input)
  rw [hend] at hrun
  -- the loop stops behind the first reply, so this reply is all that is copied
  rw [serveMapping_of_closed rfl hrun rfl hresult]
  constructor
  · show copied rw'.output _ = _
    rw [houtput]
  · show handledBodies (_ ++ [.reply reply]) = [m]
    rw [handledBodies_append, handledBodies_handleRequest]
    rfl

/-- A further frame is handled as well. -/
theorem serveMapping_of_frame {m' tail' : Bytes} (hne' : m' ≠ []) (hlt' : m'.length < 2 ^ 32) :
    handledBodies (serveMapping crates requester (Guarded.start w)
      (frame m ++ (frame m' ++ tail'))).events ≠ [m] := by
  have hinput : (bufReadWrite (frame m ++ (frame m' ++ tail'))).input =
      frame m ++ (frame m' ++ tail') := rfl
  have hlock := lockAndHandle_of_ok ⟨pageantInfo requester, m⟩ hreply
  obtain ⟨rw', hbehind, -, -, hrun⟩ := run_of_round crates hne hlt hinput rfl hlock
  obtain ⟨more, hmore⟩ := exists_handledBodies_run crates hne' hlt' (pageantInfo requester)
    (handled crates (pageantInfo requester) w m).world hbehind
  have hevents : (serveMapping crates requester (Guarded.start w)
      (frame m ++ (frame m' ++ tail'))).events = ((connectionHandler crates).run
        (pageantConn requester (frame m ++ (frame m' ++ tail')), ⟨w, false⟩)).2 := by
    simp only [serveMapping, Guarded.start, Bool.false_and, Bool.false_eq_true, if_false]
    split <;> rfl
  have hrest : handledBodies (.reply reply :: ((connectionHandler crates).run
      (⟨pageantInfo requester, rw', .reading⟩,
        ⟨(handled crates (pageantInfo requester) w m).world, false⟩)).2) = m' :: more := hmore
  -- the second body stands in the record behind the first
  rw [hevents, pageantConn, hrun, handledBodies_append, handledBodies_handleRequest, hrest]
  exact nofun

end FirstFrame

/-- **One message, one request.** For a mapping that begins with the frame of `m`, the message is
one request exactly when the client is identified, the mutex is free and not poisoned, and `m` is a
request that panics or no other complete frame follows. -/
theorem oneRequest_iff (crates : Crates) (client : PageantClient) (s : Guarded) (m tail : Bytes)
    (hne : m ≠ []) (hlt : m.length < 2 ^ 32) :
    OneRequest crates client s m (frame m ++ tail) ↔
      client.Identified s ∧ s.Usable ∧ (¬ Answerable s.mutex.world m ∨ Stops tail) := by
  by_cases hidentified : client.Identified s
  swap
  · apply iff_of_false
    · intro hone
      have honce := hone.handledOnce
      rw [(wndProc_of_not_identified crates hidentified _).2] at honce
      cases honce
    · exact fun h => hidentified h.1
  obtain ⟨requester, hserve⟩ := exists_wndProc_of_identified crates hidentified (frame m ++ tail)
  by_cases husable : s.Usable
  swap
  · apply iff_of_false
    · intro hone
      have honce := hone.handledOnce
      rw [hserve, (serveMapping_of_not_usable hne hlt husable).2] at honce
      cases honce
    · exact fun h => husable h.2.1
  obtain ⟨w, rfl⟩ := exists_start_of_usable husable
  by_cases hanswer : Answerable w m
  · obtain ⟨reply, hreply⟩ :=
      (handleRequest_returns_iff crates (pageantInfo requester) w m).2 hanswer
    rcases stops_or_frame tail with hstop | ⟨m', tail', hne', hlt', rfl⟩
    · refine iff_of_true ?_ ⟨hidentified, husable, Or.inr hstop⟩
      obtain ⟨hwritten, honce⟩ := serveMapping_of_stops hne hlt hreply hstop
      refine ⟨by rw [hserve, honce], ?_⟩
      intro info reply' hreply' hfits
      -- the reply is the same for any client
      have hsame : (Agent.handleRequest crates m info w).outcome = .ok reply' := hreply'
      rw [outcome_handleRequest, (handled_info crates info (pageantInfo requester) _ m).1,
        ← outcome_handleRequest, hreply, Outcome.ok.injEq] at hsame
      subst hsame
      rw [CopyData.mapping, hserve, hwritten, copied, if_neg (Nat.not_lt.2 hfits)]
    · apply iff_of_false
      · intro hone
        have honce := hone.handledOnce
        rw [hserve] at honce
        exact serveMapping_of_frame hne hlt hreply hne' hlt' honce
      · rintro ⟨-, -, hnot | hstop⟩
        · exact hnot hanswer
        · exact not_stops_frame hne' hlt' hstop
  · refine iff_of_true ?_ ⟨hidentified, husable, Or.inl hanswer⟩
    refine ⟨by rw [hserve, serveMapping_of_not_answerable hne hlt hanswer], ?_⟩
    intro info reply hreply _
    exact absurd ((handleRequest_returns_iff crates info w m).1 ⟨reply, hreply⟩) hanswer

/-- A client whose mapping is among the handles, and who was started by a console. -/
def consoleClient : PageantClient where
  mappingName := utf8 "PageantRequest00001234"
  table := some [sectionOf 8 "\\BaseNamedObjects\\PageantRequest00001234"]
  me := 1
  sys := console

theorem identified_consoleClient (w : World) : consoleClient.Identified (Guarded.start w) := by
  have hname : fromUtf8 consoleClient.mappingName = some "PageantRequest00001234" := by
    decide +kernel
  have howner : findMemoryMapOwnerProcess consoleClient.table consoleClient.me
      "PageantRequest00001234" = .ok (some 8) := by decide +kernel
  have hinfo : consoleClient.sys.describeClient 8 =
      some (.ok { descriptionShort := "cmd.exe - T"
                  descriptionLong := "8 : ssh.exe : C:\\ssh.exe\n\n" ++
                    "4 : cmd.exe - T : C:\\cmd.exe" }) := by decide +kernel
  rw [← exists_requester_iff, PageantClient.requester, hname]
  simp only [howner, Guarded.requester, Guarded.start, Bool.false_eq_true, if_false, hinfo]
  exact ⟨_, rfl⟩

/-- A listing alone in its mapping. -/
theorem oneRequest_listing :
    OneRequest Reference.crates consoleClient (Guarded.start (emptyWorld true .none))
      [sshAgentcRequestIdentities] (frame [sshAgentcRequestIdentities] ++ [0, 0, 0, 0]) :=
  (oneRequest_iff Reference.crates consoleClient (Guarded.start (emptyWorld true .none))
    [sshAgentcRequestIdentities] [0, 0, 0, 0] (by decide) (by decide)).2
    ⟨identified_consoleClient _, usable_start _, Or.inr (.zeroLength [])⟩

/-- A second listing left over in the mapping is handled as well. -/
theorem leftover_frame_is_handled :
    ¬ OneRequest Reference.crates consoleClient (Guarded.start (emptyWorld true .none))
      [sshAgentcRequestIdentities]
      (frame [sshAgentcRequestIdentities] ++ frame [sshAgentcRequestIdentities]) := by
  obtain ⟨requester, hserve⟩ := exists_wndProc_of_identified Reference.crates
    (identified_consoleClient (emptyWorld true .none))
    (frame [sshAgentcRequestIdentities] ++ frame [sshAgentcRequestIdentities])
  have hreply : (Agent.handleRequest Reference.crates [sshAgentcRequestIdentities]
      (pageantInfo requester) (emptyWorld true .none)).outcome =
        .ok [sshAgentIdentitiesAnswer, 0, 0, 0, 0] := rfl
  have htwice : handledBodies (serveMapping Reference.crates requester
      (Guarded.start (emptyWorld true .none)) (frame [sshAgentcRequestIdentities] ++
        (frame [sshAgentcRequestIdentities] ++ []))).events ≠ [[sshAgentcRequestIdentities]] :=
    serveMapping_of_frame (by decide) (by decide) hreply (by decide) (by decide)
  intro hone
  have honce := hone.handledOnce
  rw [hserve, ← List.append_nil (frame _ ++ frame _), List.append_assoc] at honce
  exact htwice honce

end SshKeys
