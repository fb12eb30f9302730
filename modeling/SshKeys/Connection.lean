import SshKeys.Panic
import SshKeys.Transport
import SshKeys.Lib.Loop

/-!
# Connections

The loop that serves one client, after `connection_handler` in `utils.rs`. One step of a connection
is one of its three blocking operations: reading a frame, handling it under the agent's mutex,
writing the reply (`connStep`). `connectionHandler` is the whole loop; it ends, because every frame
read makes the unread input shorter (`connectionHandler_closes`).

`connection_serves_frames` relates the loop to the frames of its input.
-/

set_option autoImplicit false

namespace SshKeys

open Lib

/-! ## The loop -/

/-- Where a connection is in its loop. -/
inductive Phase where
  | reading
  /-- A frame is read; `lock()` comes next. -/
  | locking (buf : Bytes)
  | writing (resp : Bytes)
  | closed (result : Outcome Error Unit)
  deriving DecidableEq

/-- A connection: what is known of its client, its streams, and where its loop is. -/
structure Conn where
  info : RequestInfo
  rw : ReadWrite
  phase : Phase
  deriving DecidableEq

/-- The connection after it has read up to `input`. -/
def Conn.goto (conn : Conn) (input : Bytes) (phase : Phase) : Conn :=
  { conn with rw := { conn.rw with input }, phase }

/-- The end of the loop when a length cannot be read; only some errors are reported. -/
def Conn.noLength (conn : Conn) : Conn :=
  if conn.rw.atEnd = .unexpectedEof ∨ conn.rw.atEnd = .brokenPipe then
    conn.goto [] (.closed (.ok ()))
  else conn.goto [] (.closed (.err (.io conn.rw.atEnd)))

/-- Reading a length and as many bytes. -/
def Conn.readFrame (conn : Conn) : Conn :=
  match readU32 conn.rw.input with
  | .ok (len, input) =>
      if len = 0 then conn.goto input (.closed (.ok ()))
      else
        match readExact len input with
        | .ok (buf, rest) => conn.goto rest (.locking buf)
        -- `read_exact` consumes what is there; the error is returned, also at the end of input
        | _ => conn.goto [] (.closed (.err (.io conn.rw.atEnd)))
  | _ => conn.noLength

theorem readFrame_of_frame (conn : Conn) {m tail : Bytes} (hne : m ≠ []) (hlt : m.length < 2 ^ 32)
    (h : conn.rw.input = frame m ++ tail) : conn.readFrame = conn.goto tail (.locking m) := by
  have hlen : readU32 conn.rw.input = .ok (m.length, m ++ tail) := by
    rw [readU32_eq_ok_iff, h, frame, List.append_assoc]
    exact ⟨hlt, rfl⟩
  have hbody : readExact m.length (m ++ tail) = .ok (m, tail) := readExact_eq_ok_iff.2 ⟨rfl, rfl⟩
  have hpos : m.length ≠ 0 := fun h0 => hne (List.eq_nil_of_length_eq_zero h0)
  rw [Conn.readFrame, hlen]
  simp only [if_neg hpos, hbody]

theorem readFrame_of_stops (conn : Conn) (h : Stops conn.rw.input) :
    ∃ input result, result ≠ .panic ∧ conn.readFrame = conn.goto input (.closed result) := by
  have hend : ∃ input result, result ≠ .panic ∧
      conn.noLength = conn.goto input (.closed result) := by
    rw [Conn.noLength]
    split
    · exact ⟨[], .ok (), by simp, rfl⟩
    · exact ⟨[], .err (.io conn.rw.atEnd), by simp, rfl⟩
  rw [Conn.readFrame]
  generalize conn.rw.input = input at h
  cases h with
  | shortLength hshort =>
      cases hlen : readU32 input with
      | ok p =>
          have hinput := length_of_readU32 hlen
          omega
      | err e => exact hend
      | panic => exact hend
  | zeroLength rest =>
      rw [readU32_eq_ok_iff.2 ⟨by norm_num, rfl⟩]
      exact ⟨rest, .ok (), by simp, rfl⟩
  | @shortBody len part hlt hshort =>
      have hzero : len ≠ 0 := by omega
      have hbody : readExact len part = .err (.io .unexpectedEof) := if_neg (by omega)
      rw [readU32_eq_ok_iff.2 ⟨hlt, rfl⟩]
      simp only [if_neg hzero, hbody]
      exact ⟨[], .err (.io conn.rw.atEnd), by simp, rfl⟩

/-- One step of a connection and the mutex it shares, if the connection is open. -/
def connStep (crates : Crates) :
    Conn × AgentMutex → Option ((Conn × AgentMutex) × List Event)
  | (conn, mutex) =>
      match conn.phase with
      | .closed _ => none
      | .reading => some ((conn.readFrame, mutex), [])
      | .locking buf =>
          match lockAndHandle crates mutex { info := conn.info, buf } with
          | (some resp, mutex', events) =>
              some (({ conn with phase := .writing resp }, mutex'), events)
          | (none, mutex', events) =>
              some (({ conn with phase := .closed .panic }, mutex'), events)
      | .writing resp =>
          -- a write that fails ends the loop with its error
          match conn.rw.writeString resp with
          | (.ok (), rw) => some (({ conn with rw, phase := .reading }, mutex), [.reply resp])
          | (outcome, rw) =>
              some (({ conn with rw, phase := .closed outcome }, mutex), [.reply resp])

theorem readFrame_info (conn : Conn) : conn.readFrame.info = conn.info := by
  rcases stops_or_frame conn.rw.input with hstop | ⟨m, tail, hne, hlt, hinput⟩
  · obtain ⟨input, result, -, hread⟩ := readFrame_of_stops conn hstop
    rw [hread]
    rfl
  · rw [readFrame_of_frame conn hne hlt hinput]
    rfl

theorem readFrame_ne_writing (conn : Conn) (resp : Bytes) :
    conn.readFrame.phase ≠ .writing resp := by
  rcases stops_or_frame conn.rw.input with hstop | ⟨m, tail, hne, hlt, hinput⟩
  · obtain ⟨input, result, -, hread⟩ := readFrame_of_stops conn hstop
    rw [hread]
    simp [Conn.goto]
  · rw [readFrame_of_frame conn hne hlt hinput]
    simp [Conn.goto]

/-- What a step can do: read a frame, handle one, or write a reply. -/
theorem connStep_cases {crates : Crates} {conn conn' : Conn} {mutex mutex' : AgentMutex}
    {es : List Event} (h : connStep crates (conn, mutex) = some ((conn', mutex'), es)) :
    conn'.info = conn.info ∧
      ((conn.phase = .reading ∧ mutex' = mutex ∧ es = [] ∧ ∀ resp, conn'.phase ≠ .writing resp) ∨
      (∃ buf reply, conn.phase = .locking buf ∧
        lockAndHandle crates mutex ⟨conn.info, buf⟩ = (reply, mutex', es) ∧
        ∀ resp, conn'.phase = .writing resp → reply = some resp) ∨
      (∃ resp, conn.phase = .writing resp ∧ mutex' = mutex ∧ es = [.reply resp] ∧
        ∀ resp', conn'.phase ≠ .writing resp')) := by
  rcases conn with ⟨info, rw', phase⟩
  cases phase with
  | closed result => cases h
  | reading =>
      simp only [connStep, Option.some.injEq, Prod.mk.injEq] at h
      obtain ⟨⟨rfl, rfl⟩, rfl⟩ := h
      exact ⟨readFrame_info _, Or.inl ⟨rfl, rfl, rfl, readFrame_ne_writing _⟩⟩
  | locking buf =>
      simp only [connStep] at h
      split at h <;> next hlock =>
        simp only [Option.some.injEq, Prod.mk.injEq] at h
        obtain ⟨⟨rfl, rfl⟩, rfl⟩ := h
        exact ⟨rfl, Or.inr (Or.inl ⟨buf, _, rfl, hlock, by simp⟩)⟩
  | writing resp =>
      simp only [connStep] at h
      split at h
      · simp only [Option.some.injEq, Prod.mk.injEq] at h
        obtain ⟨⟨rfl, rfl⟩, rfl⟩ := h
        exact ⟨rfl, Or.inr (Or.inr ⟨resp, rfl, rfl, rfl, by simp⟩)⟩
      · simp only [Option.some.injEq, Prod.mk.injEq] at h
        obtain ⟨⟨rfl, rfl⟩, rfl⟩ := h
        exact ⟨rfl, Or.inr (Or.inr ⟨resp, rfl, rfl, rfl, by simp⟩)⟩

/-- What is left for a connection to do. -/
def Conn.remaining (conn : Conn) : Nat :=
  -- three steps a frame, and one to find that there is no further one
  match conn.phase with
  | .reading => 3 * conn.rw.input.length + 1
  | .locking _ => 3 * conn.rw.input.length + 3
  | .writing _ => 3 * conn.rw.input.length + 2
  | .closed _ => 0

theorem connStep_remaining_lt {crates : Crates} {s s' : Conn × AgentMutex} {es : List Event}
    (h : connStep crates s = some (s', es)) : s'.1.remaining < s.1.remaining := by
  rcases s with ⟨⟨info, rw', phase⟩, mutex⟩
  cases phase with
  | closed result => cases h
  | reading =>
      simp only [connStep, Option.some.injEq, Prod.mk.injEq] at h
      obtain ⟨rfl, -⟩ := h
      -- reading closes the connection or consumes four bytes at least
      rcases stops_or_frame rw'.input with hstop | ⟨m, tail, hne, hlt, hinput⟩
      · obtain ⟨input, result, -, hread⟩ :=
          readFrame_of_stops ⟨info, rw', .reading⟩ hstop
        rw [hread]
        exact Nat.succ_pos _
      · rw [readFrame_of_frame ⟨info, rw', .reading⟩ hne hlt hinput]
        have hlen := congrArg List.length hinput
        rw [List.length_append, length_frame] at hlen
        show 3 * tail.length + 3 < 3 * rw'.input.length + 1
        omega
  | locking buf =>
      simp only [connStep] at h
      split at h <;> simp only [Option.some.injEq, Prod.mk.injEq] at h <;> obtain ⟨rfl, -⟩ := h
      · exact Nat.lt_succ_self _
      · exact Nat.succ_pos _
  | writing resp =>
      have hinput : (rw'.writeString resp).2.input = rw'.input := by
        rw [ReadWrite.writeString_eq]
        rfl
      simp only [connStep] at h
      split at h <;> simp only [Option.some.injEq, Prod.mk.injEq] at h <;> obtain ⟨rfl, -⟩ := h
      · next hwrite =>
          rw [hwrite] at hinput
          show 3 * _ + 1 < 3 * rw'.input.length + 2
          rw [← hinput]
          exact Nat.lt_succ_self _
      · exact Nat.succ_pos _

/-- `connection_handler` -/
def connectionHandler (crates : Crates) : Loop (Conn × AgentMutex) Event where
  step := connStep crates
  measure s := s.1.remaining
  decreases h := connStep_remaining_lt h

/-- **The loop ends**, whatever the input and the state of the mutex, with the connection closed. -/
theorem connectionHandler_closes (crates : Crates) (s : Conn × AgentMutex) :
    ∃ result, ((connectionHandler crates).run s).1.1.phase = .closed result := by
  have hstop := Loop.step_run (L := connectionHandler crates) s
  generalize ((connectionHandler crates).run s).1 = t at hstop ⊢
  rcases t with ⟨⟨info, rw', phase⟩, mutex⟩
  -- an open connection has a step in every phase
  cases phase with
  | closed result => exact ⟨result, rfl⟩
  | reading => cases hstop
  | locking buf =>
      simp only [connectionHandler, connStep] at hstop
      split at hstop <;> cases hstop
  | writing resp =>
      simp only [connectionHandler, connStep] at hstop
      split at hstop <;> cases hstop

/-! ## What a connection serves -/

/-- The requests handed to the agent, in order. -/
def handledBodies (events : List Event) : List Bytes :=
  events.filterMap fun event =>
    match event with
    | .request _ buf _ => some buf
    | _ => none

theorem handledBodies_append (events events' : List Event) :
    handledBodies (events ++ events') = handledBodies events ++ handledBodies events' :=
  List.filterMap_append

theorem handledBodies_of_signing {events : List Event}
    (h : ∀ event ∈ events, event.OfSigning) : handledBodies events = [] := by
  rw [handledBodies, List.filterMap_eq_nil_iff]
  intro event hevent
  have hsigning := h event hevent
  cases event with
  | confirm keyPair info answer => rfl
  | sign key msg flags sig => rfl
  | request keys buf info => exact absurd hsigning not_false
  | save ok => rfl
  | reply resp => rfl

/-- Handling a request hands exactly this one to the agent. -/
theorem handledBodies_handleRequest (crates : Crates) (buf : Bytes) (info : RequestInfo)
    (w : World) : handledBodies (Agent.handleRequest crates buf info w).events = [buf] := by
  have hrest : handledBodies (handled crates info w buf).events = [] := by
    rcases stores_or_untouched crates info w buf with ⟨keyPair, hadd, hnew⟩ | ⟨-, hsame⟩
    · rw [handled_of_new hadd hnew]
      rfl
    · exact handledBodies_of_signing hsame.events
  rw [Agent.handleRequest_eq, Effect.after, List.singleton_append]
  show buf :: handledBodies (handled crates info w buf).events = [buf]
  rw [hrest]

theorem run_of_stops (crates : Crates) (info : RequestInfo) {rw : ReadWrite} (mutex : AgentMutex)
    (h : Stops rw.input) :
    ∃ input result, result ≠ .panic ∧
      (connectionHandler crates).run ({ info, rw, phase := .reading }, mutex) =
        (({ info, rw := { rw with input }, phase := .closed result }, mutex), []) := by
  obtain ⟨input, result, hresult, hread⟩ := readFrame_of_stops ⟨info, rw, .reading⟩ h
  refine ⟨input, result, hresult, ?_⟩
  have hstep : (connectionHandler crates).step ({ info, rw, phase := .reading }, mutex) =
      some ((Conn.readFrame ⟨info, rw, .reading⟩, mutex), []) := rfl
  rw [Loop.run_of_step hstep, hread]
  have hstop : (connectionHandler crates).step
      (Conn.goto ⟨info, rw, .reading⟩ input (.closed result), mutex) = none := rfl
  rw [Loop.run_of_stop hstop]
  rfl

/-- One round of the loop, up to the write of the reply. -/
theorem run_of_frame {crates : Crates} {info : RequestInfo} {rw : ReadWrite}
    {mutex mutex' : AgentMutex} {m tail reply : Bytes} {events : List Event} (hne : m ≠ [])
    (hlt : m.length < 2 ^ 32)
    (hinput : rw.input = frame m ++ tail)
    (hreply : lockAndHandle crates mutex ⟨info, m⟩ = (some reply, mutex', events)) :
    (connectionHandler crates).run ({ info, rw, phase := .reading }, mutex) =
      (((connectionHandler crates).run
        ({ info, rw := { rw with input := tail }, phase := .writing reply }, mutex')).1,
      events ++ ((connectionHandler crates).run
        ({ info, rw := { rw with input := tail }, phase := .writing reply }, mutex')).2) := by
  have hread : (connectionHandler crates).step ({ info, rw, phase := .reading }, mutex) =
      some ((Conn.goto ⟨info, rw, .reading⟩ tail (.locking m), mutex), []) := by
    rw [← readFrame_of_frame ⟨info, rw, .reading⟩ hne hlt hinput]
    rfl
  have hlock : (connectionHandler crates).step
      (Conn.goto ⟨info, rw, .reading⟩ tail (.locking m), mutex) =
      some (({ info, rw := { rw with input := tail }, phase := .writing reply }, mutex'),
        events) := by
    show connStep crates (Conn.goto ⟨info, rw, .reading⟩ tail (.locking m), mutex) = _
    rw [connStep]
    simp only [Conn.goto, hreply]
  rw [Loop.run_of_step hread, Loop.run_of_step hlock]
  rfl

/-- The write of a reply that fits; the loop goes on. -/
theorem run_of_fits {crates : Crates} {info : RequestInfo} {rw : ReadWrite} {mutex : AgentMutex}
    {reply : Bytes} (h : Fits rw.room (writeString reply).length) :
    (connectionHandler crates).run ({ info, rw, phase := .writing reply }, mutex) =
      (((connectionHandler crates).run
        ({ info, rw := rw.put (writeString reply), phase := .reading }, mutex)).1,
      .reply reply :: ((connectionHandler crates).run
        ({ info, rw := rw.put (writeString reply), phase := .reading }, mutex)).2) := by
  have hstep : (connectionHandler crates).step ({ info, rw, phase := .writing reply }, mutex) =
      some (({ info, rw := rw.put (writeString reply), phase := .reading }, mutex),
        [.reply reply]) := by
    show connStep crates ({ info, rw, phase := .writing reply }, mutex) = _
    rw [connStep]
    simp only [ReadWrite.writeString_eq, ReadWrite.writeAll, if_pos h]
  rw [Loop.run_of_step hstep]
  rfl

/-- The write of a reply that does not fit ends the loop. -/
theorem run_of_not_fits {crates : Crates} {info : RequestInfo} {rw : ReadWrite}
    {mutex : AgentMutex} {reply : Bytes} (h : ¬ Fits rw.room (writeString reply).length) :
    (connectionHandler crates).run ({ info, rw, phase := .writing reply }, mutex) =
      (({ info, rw := rw.put (writeString reply), phase := .closed (.err (.io .other)) }, mutex),
        [.reply reply]) := by
  have hstep : (connectionHandler crates).step ({ info, rw, phase := .writing reply }, mutex) =
      some (({ info, rw := rw.put (writeString reply), phase := .closed (.err (.io .other)) },
        mutex), [.reply reply]) := by
    show connStep crates ({ info, rw, phase := .writing reply }, mutex) = _
    rw [connStep]
    simp only [ReadWrite.writeString_eq, ReadWrite.writeAll, if_neg h]
  have hstop : (connectionHandler crates).step
      ({ info, rw := rw.put (writeString reply), phase := .closed (.err (.io .other)) },
        mutex) = none := rfl
  rw [Loop.run_of_step hstep, Loop.run_of_stop hstop]
  rfl

/-- No reply is too long for its length prefix. -/
def ShortReplies (crates : Crates) (w : World) (calls : List Call) : Prop :=
  ∀ reply ∈ (serveAll crates { world := w, poisoned := false } calls).1,
    (reply.getD []).length < 2 ^ 32

instance (crates : Crates) (w : World) (calls : List Call) :
    Decidable (ShortReplies crates w calls) := by
  unfold ShortReplies
  infer_instance

/-- A finished connection has served the first `n` of the bodies, which were answered with
`replies`. -/
structure FramesServed (crates : Crates) (info : RequestInfo) (w : World) (rw : ReadWrite)
    (bodies : List Bytes) (done : (Conn × AgentMutex) × List Event) (n : Nat)
    (replies : List Bytes) : Prop where
  le : n ≤ bodies.length
  handled : handledBodies done.2 = bodies.take n
  /-- The agent's state is threaded through the requests. -/
  served : serveAll crates { world := w, poisoned := false } ((bodies.take n).map (Call.mk info)) =
    (replies.map some, done.1.2)
  output : done.1.1.rw.output = rw.output ++ cut rw.room (replies.flatMap frame)
  /-- Only the last reply may be cut. -/
  fits : ∀ k < n, Fits rw.room ((replies.take k).flatMap frame).length
  /-- A body is left over only if a reply could not be written. -/
  stop : n = bodies.length ∨ ¬ Fits rw.room (replies.flatMap frame).length
  closed : ∃ result, result ≠ .panic ∧ done.1.1.phase = .closed result

theorem framesServed_of_stops (crates : Crates) (info : RequestInfo) (w : World) {rw : ReadWrite}
    (h : Stops rw.input) :
    FramesServed crates info w rw [] ((connectionHandler crates).run
      ({ info, rw, phase := .reading }, { world := w, poisoned := false })) 0 [] := by
  obtain ⟨input, result, hresult, hrun⟩ :=
    run_of_stops crates info { world := w, poisoned := false } h
  rw [hrun]
  refine ⟨Nat.le_refl _, rfl, rfl, ?_, ?_, Or.inl rfl, result, hresult, rfl⟩
  · cases rw.room <;> simp [cut]
  · intro k hk
    exact absurd hk (Nat.not_lt_zero k)

theorem serveAll_of_reply {crates : Crates} {mutex mutex' : AgentMutex} {call : Call}
    {reply : Bytes} {events : List Event}
    (h : lockAndHandle crates mutex call = (some reply, mutex', events)) (calls : List Call) :
    serveAll crates mutex (call :: calls) =
      (some reply :: (serveAll crates mutex' calls).1, (serveAll crates mutex' calls).2) := by
  rw [serveAll, h]

theorem shortReplies_cons {crates : Crates} {w w' : World} {call : Call} {reply : Bytes}
    {events : List Event}
    (h : lockAndHandle crates { world := w, poisoned := false } call =
      (some reply, { world := w', poisoned := false }, events)) {calls : List Call} :
    ShortReplies crates w (call :: calls) ↔
      reply.length < 2 ^ 32 ∧ ShortReplies crates w' calls := by
  rw [ShortReplies, serveAll_of_reply h, List.forall_mem_cons]
  rfl

section Round

variable {crates : Crates} {info : RequestInfo} {w : World} {rw : ReadWrite}
  {m input reply : Bytes} (hne : m ≠ []) (hlt : m.length < 2 ^ 32)
  (hinput : rw.input = frame m ++ input) (hlen : reply.length < 2 ^ 32)
  (hreply : lockAndHandle crates { world := w, poisoned := false } ⟨info, m⟩ =
    (some reply, { world := (SshKeys.handled crates info w m).world, poisoned := false },
      (Agent.handleRequest crates m info w).events))

include hne hlt hinput hlen hreply

/-- A round whose reply is written, and what the rest of the loop serves. -/
theorem framesServed_of_fits {bodies replies : List Bytes} {n : Nat}
    (hfits : Fits rw.room (frame reply).length)
    (hserved : FramesServed crates info (SshKeys.handled crates info w m).world
      (({ rw with input } : ReadWrite).put (writeString reply)) bodies
      ((connectionHandler crates).run
        ({ info, rw := ({ rw with input } : ReadWrite).put (writeString reply), phase := .reading },
          { world := (SshKeys.handled crates info w m).world, poisoned := false })) n replies) :
    FramesServed crates info w rw (m :: bodies) ((connectionHandler crates).run
      ({ info, rw, phase := .reading }, { world := w, poisoned := false })) (n + 1)
      (reply :: replies) := by
  -- the events, the replies and the output of this round stand in front of those of the rest
  rw [run_of_frame hne hlt hinput hreply, run_of_fits (by rwa [writeString_eq_frame hlen])]
  refine ⟨?_, ?_, ?_, ?_, ?_, ?_, hserved.closed⟩
  · exact Nat.succ_le_succ hserved.le
  · rw [handledBodies_append, handledBodies_handleRequest, List.take_succ_cons]
    exact congrArg (m :: ·) hserved.handled
  · rw [List.take_succ_cons, List.map_cons, serveAll_of_reply hreply, hserved.served]
    rfl
  · rw [hserved.output, List.flatMap_cons, cut_append, ← writeString_eq_frame hlen,
      ← List.append_assoc]
    rfl
  · intro k hk
    cases k with
    | zero => exact fits_zero rw.room
    | succ k =>
        have hk' := hserved.fits k (Nat.lt_of_succ_lt_succ hk)
        rw [List.take_succ_cons, List.flatMap_cons, List.length_append, fits_add_iff]
        rw [writeString_eq_frame hlen] at hk'
        exact ⟨hfits, hk'⟩
  · rcases hserved.stop with hall | hnot
    · exact Or.inl (by rw [hall, List.length_cons])
    · right
      intro hall
      apply hnot
      rw [List.flatMap_cons, List.length_append, fits_add_iff] at hall
      rw [writeString_eq_frame hlen]
      exact hall.2

/-- A round whose reply cannot be written is the last one. -/
theorem framesServed_of_not_fits (bodies : List Bytes)
    (hfits : ¬ Fits rw.room (frame reply).length) :
    FramesServed crates info w rw (m :: bodies) ((connectionHandler crates).run
      ({ info, rw, phase := .reading }, { world := w, poisoned := false })) 1 [reply] := by
  rw [run_of_frame hne hlt hinput hreply, run_of_not_fits (by rwa [writeString_eq_frame hlen])]
  refine ⟨?_, ?_, ?_, ?_, ?_, ?_, .err (.io .other), by simp, rfl⟩
  · exact Nat.succ_le_succ (Nat.zero_le _)
  · rw [handledBodies_append, handledBodies_handleRequest]
    rfl
  · show serveAll crates { world := w, poisoned := false } [⟨info, m⟩] = _
    rw [serveAll_of_reply hreply]
    rfl
  · rw [List.flatMap_cons, List.flatMap_nil, List.append_nil, ← writeString_eq_frame hlen]
    rfl
  · intro k hk
    rw [Nat.lt_one_iff.1 hk]
    exact fits_zero rw.room
  · right
    rw [List.flatMap_cons, List.flatMap_nil, List.append_nil]
    exact hfits

end Round

theorem framesServed_of_frames {crates : Crates} {info : RequestInfo} {input rest : Bytes}
    {bodies : List Bytes} (h : Frames input bodies rest) :
    ∀ (w : World) (rw : ReadWrite), rw.input = input →
      AllAnswered crates w (bodies.map (Call.mk info)) →
      ShortReplies crates w (bodies.map (Call.mk info)) →
      ∃ n replies, FramesServed crates info w rw bodies ((connectionHandler crates).run
        ({ info, rw, phase := .reading }, { world := w, poisoned := false })) n replies := by
  -- along the frames, with the agent's state and the transport carried from round to round
  induction h with
  | @stop rest hstop =>
      intro w rw hinput _ _
      exact ⟨0, [], framesServed_of_stops crates info w (hinput ▸ hstop)⟩
  | @frame m input rest bodies hne hlt _ ih =>
      intro w rw hinput hans hshort
      obtain ⟨hm, hans⟩ := allAnswered_cons.1 hans
      obtain ⟨reply, hreply⟩ := lockAndHandle_of_answerable crates ⟨info, m⟩ hm
      obtain ⟨hlen, hshort⟩ := (shortReplies_cons hreply).1 hshort
      by_cases hfits : Fits rw.room (frame reply).length
      · obtain ⟨n, replies, hserved⟩ := ih _
          (({ rw with input := input } : ReadWrite).put (writeString reply)) rfl hans hshort
        exact ⟨n + 1, reply :: replies,
          framesServed_of_fits hne hlt hinput hlen hreply hfits hserved⟩
      · exact ⟨1, [reply], framesServed_of_not_fits hne hlt hinput hlen hreply bodies hfits⟩

/-- **Stream framing.** An input is cut into leading complete frames in one way. If their requests
are answered, the connection hands the bodies to the agent in order, each once, stops where the
frames stop or at the first reply that cannot be written, and writes the framed replies. -/
theorem connection_serves_frames (crates : Crates) (info : RequestInfo) (w : World)
    (rw : ReadWrite) :
    (∃! cutting : List Bytes × Bytes, Frames rw.input cutting.1 cutting.2) ∧
    ∀ bodies rest, Frames rw.input bodies rest →
      AllAnswered crates w (bodies.map (Call.mk info)) →
      ShortReplies crates w (bodies.map (Call.mk info)) →
      ∃ n replies, FramesServed crates info w rw bodies ((connectionHandler crates).run
        ({ info, rw, phase := .reading }, { world := w, poisoned := false })) n replies := by
  obtain ⟨bodies, rest, h⟩ := exists_frames rw.input
  refine ⟨⟨(bodies, rest), h, ?_⟩, fun bodies rest h => framesServed_of_frames h w rw rfl⟩
  intro cutting h'
  obtain ⟨hbodies, hrest⟩ := frames_unique h h'
  exact Prod.ext hbodies hrest

/-- A listing, a request of an unknown type, and four bytes of an unfinished third frame. -/
theorem connection_serves_frames_small :
    ∃ n replies, FramesServed Reference.crates { channel := "Unix", requester := none }
      (emptyWorld true .none)
      { input := frame [sshAgentcRequestIdentities] ++ (frame [99, 1] ++ writeU32 7)
        atEnd := .unexpectedEof
        output := []
        room := some 11 }
      [[sshAgentcRequestIdentities], [99, 1]]
      ((connectionHandler Reference.crates).run
        ({ info := { channel := "Unix", requester := none }
           rw :=
            { input := frame [sshAgentcRequestIdentities] ++ (frame [99, 1] ++ writeU32 7)
              atEnd := .unexpectedEof
              output := []
              room := some 11 }
           phase := .reading },
          { world := emptyWorld true .none, poisoned := false })) n replies :=
  (connection_serves_frames Reference.crates { channel := "Unix", requester := none }
    (emptyWorld true .none) _).2 _ (writeU32 7)
    (.frame (by decide) (by decide) (.frame (by decide) (by decide)
      (.stop (Stops.shortBody (by decide) (by decide) : Stops (writeU32 7 ++ [])))))
    (by decide +kernel) (by decide +kernel)

end SshKeys
