import SshKeys.Server

/-!
# The order of the requests

The serving process of `Server` compared with an agent that has no clients: one that takes a list of
turns, each a request or a reload, one after the other (`takeTurns`). The clients of the process see
nothing of each other but the order of the turns, and each of them is served as if it were alone.

`server_takes_turns` is the comparison, for any run. `server_steps_le` bounds the steps of a client
and says that it waits for the others at the mutex only, and `poisoned_server_run` what is left of a
server after a panic.
-/

set_option autoImplicit false

namespace SshKeys

open Lib

/-! ## The agent alone -/

/-- What the mutex lets in. -/
inductive Turn where
  | request (id : ConnId) (call : Call)
  | reload (fault : LoadFault)

/-- What the turns taken so far leave: the mutex, an answer to every request, with a panic for none,
and what was recorded. -/
structure Taken where
  mutex : AgentMutex
  answers : List (ConnId × Option Bytes)
  events : List (ConnId × Event)

/-- The tray command, on the agent behind the mutex. -/
def AgentMutex.reload (crates : Crates) (mutex : AgentMutex) (fault : LoadFault) : AgentMutex :=
  let w := mutex.world
  { mutex with world := { w with config := (Config.reload crates fault w.file w.config).2 } }

/-- One more turn. A request that finds the mutex poisoned is answered by a panic. -/
def takeTurn (crates : Crates) (taken : Taken) : Turn → Taken
  | .request id call =>
      let (answer, mutex, events) := lockAndHandle crates taken.mutex call
      { mutex
        answers := taken.answers ++ [(id, answer)]
        events := taken.events ++ events.map fun event => (id, event) }
  | .reload fault => { taken with mutex := taken.mutex.reload crates fault }

/-- The turns, one after the other. -/
def takeTurns (crates : Crates) (w : World) (turns : List Turn) : Taken :=
  turns.foldl (takeTurn crates)
    { mutex := { world := w, poisoned := false }, answers := [], events := [] }

/-- The requests of one client, in order. -/
def callsOf (id : ConnId) (turns : List Turn) : List Call :=
  turns.filterMap fun turn =>
    match turn with
    | .request id' call => if id' = id then some call else none
    | .reload _ => none

/-- What belongs to one client, in order. -/
def entriesOf {α : Type} (id : ConnId) (entries : List (ConnId × α)) : List α :=
  entries.filterMap fun entry => if entry.1 = id then some entry.2 else none

theorem takeTurns_concat (crates : Crates) (w : World) (turns : List Turn) (turn : Turn) :
    takeTurns crates w (turns ++ [turn]) = takeTurn crates (takeTurns crates w turns) turn := by
  rw [takeTurns, List.foldl_append]
  rfl

theorem callsOf_concat_request (id id' : ConnId) (turns : List Turn) (call : Call) :
    callsOf id (turns ++ [.request id' call]) =
      if id' = id then callsOf id turns ++ [call] else callsOf id turns := by
  rw [callsOf, List.filterMap_append]
  by_cases h : id' = id
  · simp [h, callsOf]
  · simp [h, callsOf]

theorem callsOf_concat_reload (id : ConnId) (turns : List Turn) (fault : LoadFault) :
    callsOf id (turns ++ [.reload fault]) = callsOf id turns := by
  rw [callsOf, List.filterMap_append]
  exact List.append_nil _

section Entries

variable {α : Type}

theorem entriesOf_append (id : ConnId) (entries entries' : List (ConnId × α)) :
    entriesOf id (entries ++ entries') = entriesOf id entries ++ entriesOf id entries' :=
  List.filterMap_append

theorem entriesOf_map_self (id : ConnId) (l : List α) :
    entriesOf id (l.map fun a => (id, a)) = l := by
  induction l with
  | nil => rfl
  | cons a l ih =>
      rw [List.map_cons, entriesOf, List.filterMap_cons, if_pos rfl]
      exact congrArg (a :: ·) ih

theorem entriesOf_map_of_ne {id id' : ConnId} (h : id' ≠ id) (l : List α) :
    entriesOf id (l.map fun a => (id', a)) = [] := by
  rw [entriesOf, List.filterMap_map, List.filterMap_eq_nil_iff]
  intro a _
  exact if_neg h

end Entries

/-! ## One client -/

/-- An event that is not the write of a reply. -/
def Event.ofAgent : Event → Bool
  | .reply _ => false
  | _ => true

/-- The replies among the events. -/
def repliesIn (events : List Event) : List Bytes :=
  events.filterMap fun event =>
    match event with
    | .reply resp => some resp
    | _ => none

/-- The answer that a client still waits for, or will never get. -/
def Phase.outstanding : Phase → List (Option Bytes)
  | .writing resp => [some resp]
  | .closed .panic => [none]
  | _ => []

/-- The input begins with the frames of the bodies, and `input` is what follows them. -/
structure BeginsWith (whole : Bytes) (bodies : List Bytes) (input : Bytes) : Prop where
  ne : ∀ m ∈ bodies, m ≠ []
  lt : ∀ m ∈ bodies, m.length < 2 ^ 32
  input : whole = bodies.flatMap frame ++ input

/-- The transport once it is read up to `input` and the replies are written. -/
def ReadWrite.after (rw : ReadWrite) (input : Bytes) (replies : List Bytes) : ReadWrite :=
  { rw.put (replies.flatMap SshKeys.writeString) with input }

/-- How far a client that was accepted with the transport `rw` has got: `bodies` had their turns and
were answered with the answers, and `replies` were written. -/
inductive Progress (rw : ReadWrite) (bodies : List Bytes) :
    List (Option Bytes) → List Bytes → ReadWrite → Phase → Prop where
  | reading {replies : List Bytes} {input : Bytes} :
      BeginsWith rw.input bodies input →
      Fits rw.room (replies.flatMap writeString).length →
      Progress rw bodies (replies.map some) replies (rw.after input replies) .reading
  | locking {replies : List Bytes} {buf input : Bytes} :
      BeginsWith rw.input (bodies ++ [buf]) input →
      Fits rw.room (replies.flatMap writeString).length →
      Progress rw bodies (replies.map some) replies (rw.after input replies) (.locking buf)
  | writing {replies : List Bytes} {resp input : Bytes} :
      BeginsWith rw.input bodies input →
      Fits rw.room (replies.flatMap writeString).length →
      Progress rw bodies (replies.map some ++ [some resp]) replies (rw.after input replies)
        (.writing resp)
  | stopped {replies : List Bytes} {rest input : Bytes} {result : Outcome Error Unit} :
      BeginsWith rw.input bodies rest → Stops rest →
      Fits rw.room (replies.flatMap writeString).length → result ≠ .panic →
      Progress rw bodies (replies.map some) replies (rw.after input replies) (.closed result)
  | panicked {replies : List Bytes} {input : Bytes} :
      BeginsWith rw.input bodies input →
      Fits rw.room (replies.flatMap writeString).length →
      Progress rw bodies (replies.map some ++ [none]) replies (rw.after input replies)
        (.closed .panic)
  /-- The last reply could not be written. -/
  | cut {replies : List Bytes} {input : Bytes} :
      BeginsWith rw.input bodies input →
      ¬ Fits rw.room (replies.flatMap writeString).length →
      Progress rw bodies (replies.map some) replies (rw.after input replies)
        (.closed (.err (.io .other)))

theorem beginsWith_nil (whole : Bytes) : BeginsWith whole [] whole where
  ne m h := by cases h
  lt m h := by cases h
  input := rfl

theorem BeginsWith.concat {whole input m : Bytes} {bodies : List Bytes}
    (h : BeginsWith whole bodies (frame m ++ input)) (hne : m ≠ []) (hlt : m.length < 2 ^ 32) :
    BeginsWith whole (bodies ++ [m]) input where
  ne m' hm' := by
    rcases List.mem_append.1 hm' with hm' | hm'
    · exact h.ne m' hm'
    · rw [List.mem_singleton.1 hm']
      exact hne
  lt m' hm' := by
    rcases List.mem_append.1 hm' with hm' | hm'
    · exact h.lt m' hm'
    · rw [List.mem_singleton.1 hm']
      exact hlt
  input := by
    rw [h.input, List.flatMap_append, List.flatMap_singleton, List.append_assoc]

/-- The frames read so far and the frames that follow are the frames of the input. -/
theorem BeginsWith.frames {whole input rest : Bytes} {bodies more : List Bytes}
    (h : BeginsWith whole bodies input) (hmore : Frames input more rest) :
    Frames whole (bodies ++ more) rest := by
  rw [h.input]
  have hne := h.ne
  have hlt := h.lt
  clear h
  induction bodies with
  | nil => exact hmore
  | cons m bodies ih =>
      rw [List.flatMap_cons, List.append_assoc, List.cons_append]
      refine .frame (hne m List.mem_cons_self) (hlt m List.mem_cons_self) (ih ?_ ?_)
      · exact fun m' hm' => hne m' (List.mem_cons_of_mem m hm')
      · exact fun m' hm' => hlt m' (List.mem_cons_of_mem m hm')

theorem BeginsWith.of_concat {whole input m : Bytes} {bodies : List Bytes}
    (h : BeginsWith whole (bodies ++ [m]) input) :
    m ≠ [] ∧ m.length < 2 ^ 32 ∧ BeginsWith whole bodies (frame m ++ input) := by
  have hmem : m ∈ bodies ++ [m] := List.mem_append_right bodies List.mem_cons_self
  refine ⟨h.ne m hmem, h.lt m hmem, ?_, ?_, ?_⟩
  · exact fun m' hm' => h.ne m' (List.mem_append_left _ hm')
  · exact fun m' hm' => h.lt m' (List.mem_append_left _ hm')
  · rw [h.input, List.flatMap_append, List.flatMap_singleton, List.append_assoc]

theorem after_nil (rw : ReadWrite) : rw.after rw.input [] = rw := by
  rcases rw with ⟨input, atEnd, output, room⟩
  cases room with
  | none => simp [ReadWrite.after, ReadWrite.put, cut]
  | some r => simp [ReadWrite.after, ReadWrite.put, cut]

theorem put_after (rw : ReadWrite) (input : Bytes) (replies : List Bytes) (resp : Bytes) :
    (rw.after input replies).put (writeString resp) = rw.after input (replies ++ [resp]) := by
  rw [ReadWrite.after, ReadWrite.after, List.flatMap_append, List.flatMap_singleton, put_append]
  rfl

theorem fits_after {rw : ReadWrite} {input : Bytes} {replies : List Bytes} (resp : Bytes)
    (h : Fits rw.room (replies.flatMap writeString).length) :
    Fits (rw.after input replies).room (writeString resp).length ↔
      Fits rw.room ((replies ++ [resp]).flatMap writeString).length := by
  rw [List.flatMap_append, List.flatMap_singleton, List.length_append, fits_add_iff]
  exact (and_iff_right h).symm

/-! ## One step of a client -/

/-- What a step of a client did: it read, it took a turn, or it wrote a reply. -/
inductive Stepped (crates : Crates) (info : RequestInfo) (mutex : AgentMutex) (bodies : List Bytes)
    (answers : List (Option Bytes)) (replies : List Bytes) :
    AgentMutex → List Event → List Bytes → List (Option Bytes) → List Bytes → Prop where
  | read : Stepped crates info mutex bodies answers replies mutex [] bodies answers replies
  | turn {buf : Bytes} {answer : Option Bytes} {mutex' : AgentMutex} {events : List Event} :
      lockAndHandle crates mutex ⟨info, buf⟩ = (answer, mutex', events) →
      Stepped crates info mutex bodies answers replies mutex' events (bodies ++ [buf])
        (answers ++ [answer]) replies
  | wrote {resp : Bytes} :
      Stepped crates info mutex bodies answers replies mutex [.reply resp] bodies answers
        (replies ++ [resp])

/-- **A client goes on** as if it were alone: whatever others did to the agent in between, a step
reads the next frame, has a turn with it, or writes the answer. -/
theorem progress_connStep {crates : Crates} {rw : ReadWrite} {bodies replies : List Bytes}
    {answers : List (Option Bytes)} {conn conn' : Conn} {mutex mutex' : AgentMutex}
    {events : List Event} (h : Progress rw bodies answers replies conn.rw conn.phase)
    (hstep : connStep crates (conn, mutex) = some ((conn', mutex'), events)) :
    conn'.info = conn.info ∧ ∃ bodies' answers' replies',
      Stepped crates conn.info mutex bodies answers replies mutex' events bodies' answers'
        replies' ∧
      Progress rw bodies' answers' replies' conn'.rw conn'.phase := by
  rcases conn with ⟨info, crw, phase⟩
  simp only at h
  cases h with
  | @reading replies input hbegins hfits =>
      simp only [connStep, Option.some.injEq, Prod.mk.injEq] at hstep
      obtain ⟨⟨rfl, rfl⟩, rfl⟩ := hstep
      refine ⟨readFrame_info _, bodies, _, replies, .read, ?_⟩
      rcases stops_or_frame input with hstop | ⟨m, tail, hne, hlt, rfl⟩
      · obtain ⟨input', result, hresult, hread⟩ :=
          readFrame_of_stops ⟨info, rw.after input replies, .reading⟩ hstop
        rw [hread]
        exact .stopped hbegins hstop hfits hresult
      · rw [readFrame_of_frame ⟨info, rw.after _ replies, .reading⟩ hne hlt rfl]
        exact .locking (hbegins.concat hne hlt) hfits
  | @locking replies buf input hbegins hfits =>
      simp only [connStep] at hstep
      split at hstep <;> next hlock =>
        simp only [Option.some.injEq, Prod.mk.injEq] at hstep
        obtain ⟨⟨rfl, rfl⟩, rfl⟩ := hstep
        refine ⟨rfl, bodies ++ [buf], _, replies, .turn hlock, ?_⟩
        first | exact .writing hbegins hfits | exact .panicked hbegins hfits
  | @writing replies resp input hbegins hfits =>
      have hans : replies.map some ++ [some resp] = (replies ++ [resp]).map some := by
        rw [List.map_append, List.map_singleton]
      simp only [connStep, ReadWrite.writeString_eq, ReadWrite.writeAll, put_after] at hstep
      by_cases hroom : Fits (rw.after input replies).room (writeString resp).length
      · rw [if_pos hroom] at hstep
        simp only [Option.some.injEq, Prod.mk.injEq] at hstep
        obtain ⟨⟨rfl, rfl⟩, rfl⟩ := hstep
        refine ⟨rfl, bodies, _, replies ++ [resp], .wrote, ?_⟩
        rw [hans]
        exact .reading hbegins ((fits_after resp hfits).1 hroom)
      · rw [if_neg hroom] at hstep
        simp only [Option.some.injEq, Prod.mk.injEq] at hstep
        obtain ⟨⟨rfl, rfl⟩, rfl⟩ := hstep
        refine ⟨rfl, bodies, _, replies ++ [resp], .wrote, ?_⟩
        rw [hans]
        exact .cut hbegins fun hall => hroom ((fits_after resp hfits).2 hall)
  | stopped hbegins hstop hfits hresult => cases hstep
  | panicked hbegins hfits => cases hstep
  | cut hbegins hfits => cases hstep

/-! ## Runs -/

/-- The client `id` was accepted with the transport `rw`, and is where its turns and what it was
written say. -/
structure ServedAlone (past : List ServerAct) (turns : List Turn) (taken : Taken)
    (log : List (ConnId × Event)) (id : ConnId) (conn : Conn) (rw : ReadWrite)
    (bodies replies : List Bytes) : Prop where
  accepted : .accept id conn.info rw ∈ past
  calls : callsOf id turns = bodies.map (Call.mk conn.info)
  written : repliesIn (entriesOf id log) = replies
  progress : Progress rw bodies (entriesOf id taken.answers) replies conn.rw conn.phase

/-- The server is where the turns lead, and each client where its own turns lead it. -/
structure Server.Ordered (crates : Crates) (w : World) (past : List ServerAct) (turns : List Turn)
    (s : Server) : Prop where
  mutex : (takeTurns crates w turns).mutex = s.mutex
  events : (takeTurns crates w turns).events = s.log.filter fun entry => entry.2.ofAgent
  served : ∀ id conn, s.conns id = some conn → ∃ rw bodies replies,
    ServedAlone past turns (takeTurns crates w turns) s.log id conn rw bodies replies
  unknown : ∀ id, s.conns id = none → callsOf id turns = [] ∧
    entriesOf id (takeTurns crates w turns).answers = [] ∧ repliesIn (entriesOf id s.log) = []

section Ordered

variable {crates : Crates} {w : World} {past : List ServerAct} {turns : List Turn} {s s' : Server}

theorem ServedAlone.accept {taken : Taken} {log : List (ConnId × Event)} {id : ConnId}
    {conn : Conn} {rw : ReadWrite} {bodies replies : List Bytes}
    (h : ServedAlone past turns taken log id conn rw bodies replies) (act : ServerAct) :
    ServedAlone (past ++ [act]) turns taken log id conn rw bodies replies :=
  ⟨List.mem_append_left _ h.accepted, h.calls, h.written, h.progress⟩

theorem update_eq_some_iff {conns : ConnId → Option Conn} {id c : ConnId} {new conn : Conn} :
    Function.update conns id (some new) c = some conn ↔
      (c = id ∧ conn = new) ∨ (c ≠ id ∧ conns c = some conn) := by
  by_cases hc : c = id
  · subst hc
    simp [eq_comm]
  · simp [hc]

theorem update_eq_none_iff {conns : ConnId → Option Conn} {id c : ConnId} {new : Conn} :
    Function.update conns id (some new) c = none ↔ c ≠ id ∧ conns c = none := by
  by_cases hc : c = id
  · subst hc
    simp
  · simp [hc]

theorem ordered_start (crates : Crates) (w : World) :
    (Server.start w).Ordered crates w [] [] where
  mutex := rfl
  events := rfl
  served id conn h := by cases h
  unknown id _ := ⟨rfl, rfl, rfl⟩

theorem ordered_acceptConn {id : ConnId} {info : RequestInfo} {rw : ReadWrite}
    (h : s.Ordered crates w past turns) (hstep : acceptConn s id info rw = some s') :
    s'.Ordered crates w (past ++ [.accept id info rw]) turns := by
  rw [acceptConn] at hstep
  cases hid : s.conns id with
  | some conn => simp [hid] at hstep
  | none =>
      rw [hid] at hstep
      simp only [Option.some.injEq] at hstep
      subst hstep
      refine ⟨h.mutex, h.events, ?_, ?_⟩
      · intro c conn hconn
        rcases update_eq_some_iff.1 hconn with ⟨rfl, rfl⟩ | ⟨-, hold⟩
        -- a new client has had no turn yet
        · obtain ⟨hcalls, hanswers, hwritten⟩ := h.unknown c hid
          refine ⟨rw, [], [], List.mem_append_right _ List.mem_cons_self, hcalls, hwritten, ?_⟩
          rw [hanswers]
          have hnew : Progress rw [] ([].map some) [] (rw.after rw.input []) .reading :=
            .reading (beginsWith_nil rw.input) (fits_zero rw.room)
          rwa [after_nil] at hnew
        · obtain ⟨rw', bodies, replies, hserved⟩ := h.served c conn hold
          exact ⟨rw', bodies, replies, hserved.accept _⟩
      · intro c hconn
        exact h.unknown c (update_eq_none_iff.1 hconn).2

theorem ordered_reloadServer {fault : LoadFault} (h : s.Ordered crates w past turns)
    (hstep : reloadServer crates s fault = some s') :
    s'.Ordered crates w (past ++ [.reload fault]) (turns ++ [.reload fault]) := by
  rw [reloadServer] at hstep
  split at hstep
  · cases hstep
  · simp only [Option.some.injEq] at hstep
    subst hstep
    have hcalls (id : ConnId) : callsOf id (turns ++ [.reload fault]) = callsOf id turns :=
      callsOf_concat_reload id turns fault
    refine ⟨?_, ?_, ?_, ?_⟩
    · rw [takeTurns_concat, takeTurn, h.mutex]
      rfl
    · rw [takeTurns_concat]
      exact h.events
    · intro id conn hconn
      obtain ⟨rw, bodies, replies, hserved⟩ := h.served id conn hconn
      refine ⟨rw, bodies, replies, (hserved.accept _).accepted, ?_, hserved.written, ?_⟩
      · rw [hcalls, hserved.calls]
      · rw [takeTurns_concat]
        exact hserved.progress
    · intro id hconn
      rw [hcalls, takeTurns_concat]
      exact h.unknown id hconn

/-- What a step of the client `id` adds for the client `c`. -/
theorem entriesOf_concat_map {α : Type} (c id : ConnId) (entries : List (ConnId × α))
    (l : List α) :
    entriesOf c (entries ++ l.map fun a => (id, a)) =
      if id = c then entriesOf c entries ++ l else entriesOf c entries := by
  rw [entriesOf_append]
  by_cases h : id = c
  · subst h
    rw [if_pos rfl, entriesOf_map_self]
  · rw [if_neg h, entriesOf_map_of_ne h, List.append_nil]

/-- Handling a request records no reply. -/
theorem ofAgent_of_lockAndHandle {mutex mutex' : AgentMutex} {call : Call} {answer : Option Bytes}
    {events : List Event} (h : lockAndHandle crates mutex call = (answer, mutex', events)) :
    ∀ event ∈ events, event.ofAgent = true := by
  rcases lockAndHandle_cases h with ⟨rfl, -⟩ | ⟨rfl, -⟩
  · simp
  · intro event hevent
    rcases List.mem_cons.1 hevent with rfl | hevent
    · rfl
    rcases handled_signs crates call.info mutex.world call.buf with hnothing |
      ⟨keyPair, msg, flags, sig, hsigns⟩
    · have hquiet := hnothing.quiet event hevent
      cases event with
      | reply resp => exact absurd hquiet not_false
      | request keys buf info => rfl
      | confirm keyPair info answer => rfl
      | sign key msg flags sig => rfl
      | save ok => rfl
    · rw [hsigns.events] at hevent
      simp only [List.mem_cons, List.not_mem_nil, or_false] at hevent
      rcases hevent with rfl | rfl
      · rfl
      · rfl

theorem repliesIn_of_ofAgent {events : List Event} (h : ∀ event ∈ events, event.ofAgent = true) :
    repliesIn events = [] := by
  rw [repliesIn, List.filterMap_eq_nil_iff]
  intro event hevent
  have hagent := h event hevent
  cases event with
  | reply resp => cases hagent
  | request keys buf info => rfl
  | confirm keyPair info answer => rfl
  | sign key msg flags sig => rfl
  | save ok => rfl

/-- What a step of the client `id` changes of the turns `turns`, the answers and the log: nothing
for the others, and for the client what it did. -/
structure Continues (turns turns' : List Turn) (taken taken' : Taken) (log : List (ConnId × Event))
    (id : ConnId) (conn : Conn) (events : List Event) (bodies' replies' : List Bytes)
    (answers' : List (Option Bytes)) : Prop where
  others : ∀ c, c ≠ id → callsOf c turns' = callsOf c turns ∧
    entriesOf c taken'.answers = entriesOf c taken.answers
  calls : callsOf id turns' = bodies'.map (Call.mk conn.info)
  answers : entriesOf id taken'.answers = answers'
  written : repliesIn (entriesOf id log ++ events) = replies'

section Record

variable {id : ConnId} {conn conn' : Conn} {rw : ReadWrite} {bodies' replies' : List Bytes}
  {answers' : List (Option Bytes)} {mutex : AgentMutex} {events : List Event} (act : ServerAct)
  (h : s.Ordered crates w past turns) (hinfo : conn'.info = conn.info)

include h hinfo

/-- Each client is where its own turns lead it, also after a step of one of them. -/
theorem ordered_of_continues {turns' : List Turn} (haccepted : .accept id conn.info rw ∈ past)
    (hmutex : (takeTurns crates w turns').mutex = mutex)
    (hevents : (takeTurns crates w turns').events =
      (s.log ++ events.map fun event => (id, event)).filter fun entry => entry.2.ofAgent)
    (hcontinues : Continues turns turns' (takeTurns crates w turns) (takeTurns crates w turns')
      s.log id conn events bodies' replies' answers')
    (hprogress : Progress rw bodies' answers' replies' conn'.rw conn'.phase) :
    (s.record id conn' mutex events).Ordered crates w (past ++ [act]) turns' := by
  have hlog (c : ConnId) : entriesOf c (s.record id conn' mutex events).log =
      if id = c then entriesOf c s.log ++ events else entriesOf c s.log :=
    entriesOf_concat_map c id s.log events
  refine ⟨hmutex, hevents, ?_, ?_⟩
  · intro c conn'' hconn
    rcases update_eq_some_iff.1 hconn with ⟨rfl, rfl⟩ | ⟨hc, hold⟩
    · refine ⟨rw, bodies', replies', ?_, ?_, ?_, ?_⟩
      · rw [hinfo]
        exact List.mem_append_left _ haccepted
      · rw [hinfo, hcontinues.calls]
      · rw [hlog, if_pos rfl, hcontinues.written]
      · rw [hcontinues.answers]
        exact hprogress
    · obtain ⟨rw', bodies'', replies'', hc'⟩ := h.served c conn'' hold
      obtain ⟨hcalls, hanswers⟩ := hcontinues.others c hc
      refine ⟨rw', bodies'', replies'', List.mem_append_left _ hc'.accepted, ?_, ?_, ?_⟩
      · rw [hcalls, hc'.calls]
      · rw [hlog, if_neg (Ne.symm hc), hc'.written]
      · rw [hanswers]
        exact hc'.progress
  · intro c hconn
    obtain ⟨hc, hold⟩ := update_eq_none_iff.1 hconn
    obtain ⟨hcalls, hanswers⟩ := hcontinues.others c hc
    rw [hcalls, hanswers, hlog, if_neg (Ne.symm hc)]
    exact h.unknown c hold

/-- The turns after a step that did what `Stepped` says. -/
theorem ordered_record {bodies replies : List Bytes}
    (hserved : ServedAlone past turns (takeTurns crates w turns) s.log id conn rw bodies replies)
    (hstepped : Stepped crates conn.info s.mutex bodies
      (entriesOf id (takeTurns crates w turns).answers) replies mutex events bodies' answers'
      replies')
    (hprogress : Progress rw bodies' answers' replies' conn'.rw conn'.phase) :
    ∃ turns', (s.record id conn' mutex events).Ordered crates w (past ++ [act]) turns' := by
  cases hstepped with
  | read =>
      refine ⟨turns, ordered_of_continues act h hinfo hserved.accepted h.mutex ?_ ?_ hprogress⟩
      · rw [List.map_nil, List.append_nil]
        exact h.events
      · refine ⟨fun c _ => ⟨rfl, rfl⟩, hserved.calls, rfl, ?_⟩
        rw [List.append_nil, hserved.written]
  | @turn buf answer mutex' events hlock =>
      have htaken : takeTurns crates w (turns ++ [.request id ⟨conn.info, buf⟩]) =
          { mutex
            answers := (takeTurns crates w turns).answers ++ [(id, answer)]
            events :=
              (takeTurns crates w turns).events ++ events.map fun event => (id, event) } := by
        rw [takeTurns_concat, takeTurn, h.mutex, hlock]
      have hagent := ofAgent_of_lockAndHandle hlock
      refine ⟨turns ++ [.request id ⟨conn.info, buf⟩],
        ordered_of_continues act h hinfo hserved.accepted ?_ ?_ ?_ hprogress⟩
      · rw [htaken]
      -- everything that the turn recorded stays in the log without its replies
      · rw [htaken, List.filter_append, ← h.events, List.filter_eq_self.2]
        intro entry hentry
        obtain ⟨event, hevent, rfl⟩ := List.mem_map.1 hentry
        exact hagent event hevent
      · rw [htaken]
        refine ⟨fun c hc => ⟨?_, ?_⟩, ?_, ?_, ?_⟩
        · rw [callsOf_concat_request, if_neg (Ne.symm hc)]
        · exact (entriesOf_concat_map c id _ [answer]).trans (if_neg (Ne.symm hc))
        · rw [callsOf_concat_request, if_pos rfl, hserved.calls, List.map_append,
            List.map_singleton]
        · exact (entriesOf_concat_map id id _ [answer]).trans (if_pos rfl)
        · rw [repliesIn, List.filterMap_append]
          show repliesIn _ ++ repliesIn events = _
          rw [repliesIn_of_ofAgent hagent, List.append_nil, hserved.written]
  | @wrote resp =>
      refine ⟨turns, ordered_of_continues act h hinfo hserved.accepted h.mutex ?_ ?_ hprogress⟩
      · rw [List.filter_append, ← h.events]
        exact (List.append_nil _).symm
      · refine ⟨fun c _ => ⟨rfl, rfl⟩, hserved.calls, rfl, ?_⟩
        rw [repliesIn, List.filterMap_append]
        exact congrArg (· ++ [resp]) hserved.written

end Record

theorem ordered_step {act : ServerAct} (h : s.Ordered crates w past turns)
    (hstep : (serverMachine crates).step s act = some s') :
    ∃ turns', s'.Ordered crates w (past ++ [act]) turns' := by
  cases act with
  | accept id info rw => exact ⟨turns, ordered_acceptConn h hstep⟩
  | reload fault => exact ⟨_, ordered_reloadServer h hstep⟩
  | step id =>
      obtain ⟨conn, conn', mutex, events, hid, hconn, rfl⟩ := stepConn_eq_some hstep
      obtain ⟨rw, bodies, replies, hserved⟩ := h.served id conn hid
      obtain ⟨hinfo, bodies', answers', replies', hstepped, hprogress⟩ :=
        progress_connStep hserved.progress hconn
      exact ordered_record (.step id) h hinfo hserved hstepped hprogress

end Ordered

theorem exists_ordered_of_run {crates : Crates} {w : World} {acts : List ServerAct} {s : Server}
    (hrun : (serverMachine crates).run (Server.start w) acts = some s) :
    ∃ turns, s.Ordered crates w acts turns :=
  Machine.run_invariant_past_nil
    (I := fun past s => ∃ turns, s.Ordered crates w past turns)
    (fun _ _ _ _ ⟨_, h⟩ hs => ordered_step h hs) acts ⟨[], ordered_start crates w⟩ hrun

/-- Where a client is that is served as if it were alone. It was accepted with the transport `rw`,
`bodies ++ more` are the frames of its input, and the first of them had their turns. -/
structure ServedInOrder (acts : List ServerAct) (turns : List Turn) (taken : Taken)
    (log : List (ConnId × Event)) (id : ConnId) (conn : Conn) (rw : ReadWrite)
    (bodies more : List Bytes) (rest : Bytes) (replies : List Bytes) : Prop where
  accepted : .accept id conn.info rw ∈ acts
  frames : Frames rw.input (bodies ++ more) rest
  calls : callsOf id turns = bodies.map (Call.mk conn.info)
  answers : entriesOf id taken.answers = replies.map some ++ conn.phase.outstanding
  written : repliesIn (entriesOf id log) = replies
  output : conn.rw.output = rw.output ++ SshKeys.cut rw.room (replies.flatMap writeString)
  /-- A connection ends with its input, with a reply that cannot be written, or with a panic. -/
  closed : ∀ result, conn.phase = .closed result →
    more = [] ∨ ¬ Fits rw.room (replies.flatMap writeString).length ∨ result = .panic

theorem exists_servedInOrder {acts : List ServerAct} {turns : List Turn} {taken : Taken}
    {log : List (ConnId × Event)} {id : ConnId} {conn : Conn} {rw : ReadWrite}
    {bodies replies : List Bytes}
    (h : ServedAlone acts turns taken log id conn rw bodies replies) :
    ∃ more rest, ServedInOrder acts turns taken log id conn rw bodies more rest replies := by
  rcases conn with ⟨info, crw, phase⟩
  have hprogress : Progress rw bodies (entriesOf id taken.answers) replies crw phase := h.progress
  have hserved {more : List Bytes} {rest : Bytes} (hframes : Frames rw.input (bodies ++ more) rest)
      (hanswers : entriesOf id taken.answers = replies.map some ++ phase.outstanding)
      (houtput : crw.output = rw.output ++ SshKeys.cut rw.room (replies.flatMap writeString))
      (hclosed : ∀ result, phase = .closed result →
        more = [] ∨ ¬ Fits rw.room (replies.flatMap writeString).length ∨ result = .panic) :
      ∃ more rest, ServedInOrder acts turns taken log id ⟨info, crw, phase⟩ rw bodies more rest
        replies :=
    ⟨more, rest, h.accepted, hframes, h.calls, hanswers, h.written, houtput, hclosed⟩
  generalize entriesOf id taken.answers = answers at hprogress hserved
  cases hprogress with
  | @reading _ input hbegins hfits =>
      obtain ⟨more, rest, hmore⟩ := exists_frames input
      exact hserved (hbegins.frames hmore) (List.append_nil _).symm rfl (by simp)
  | @locking _ buf input hbegins hfits =>
      obtain ⟨hne, hlt, hbegins⟩ := hbegins.of_concat
      obtain ⟨more, rest, hmore⟩ := exists_frames input
      exact hserved (hbegins.frames (.frame hne hlt hmore)) (List.append_nil _).symm rfl (by simp)
  | @writing _ resp input hbegins hfits =>
      obtain ⟨more, rest, hmore⟩ := exists_frames input
      exact hserved (hbegins.frames hmore) rfl rfl (by simp)
  | @stopped _ rest input result hbegins hstop hfits hresult =>
      refine hserved (hbegins.frames (.stop hstop)) ?_ rfl fun _ _ => Or.inl rfl
      cases result with
      | ok u => exact (List.append_nil _).symm
      | err e => exact (List.append_nil _).symm
      | panic => exact absurd rfl hresult
  | @panicked _ input hbegins hfits =>
      obtain ⟨more, rest, hmore⟩ := exists_frames input
      refine hserved (hbegins.frames hmore) rfl rfl ?_
      rintro result ⟨⟩
      exact Or.inr (Or.inr rfl)
  | @cut _ input hbegins hnot =>
      obtain ⟨more, rest, hmore⟩ := exists_frames input
      refine hserved (hbegins.frames hmore) (List.append_nil _).symm rfl ?_
      intro result _
      exact Or.inr (Or.inl hnot)

/-- **Every run is a sequence of turns.** Whatever the interleaving, there is an order of the
requests and reloads in which an agent that takes them one after the other ends in the same state,
records the same requests, dialogs, signatures and saves, and gives the answers that the clients
got. Each client's requests are the leading frames of its own input in their order, and what was
written to it is the answers to them, framed, each once. -/
theorem server_takes_turns (crates : Crates) (w : World) (acts : List ServerAct) (s : Server)
    (hrun : (serverMachine crates).run (Server.start w) acts = some s) :
    ∃ turns, (takeTurns crates w turns).mutex = s.mutex ∧
      (takeTurns crates w turns).events = s.log.filter (fun entry => entry.2.ofAgent) ∧
      ∀ id conn, s.conns id = some conn → ∃ rw bodies more rest replies,
        ServedInOrder acts turns (takeTurns crates w turns) s.log id conn rw bodies more rest
          replies := by
  obtain ⟨turns, h⟩ := exists_ordered_of_run hrun
  refine ⟨turns, h.mutex, h.events, ?_⟩
  intro id conn hconn
  obtain ⟨rw, bodies, replies, hserved⟩ := h.served id conn hconn
  obtain ⟨more, rest, horder⟩ := exists_servedInOrder hserved
  exact ⟨rw, bodies, more, rest, replies, horder⟩

theorem exists_run_smallServerRun :
    ∃ s, (serverMachine Reference.crates).run (Server.start (emptyWorld true .none))
      smallServerRun = some s :=
  Option.isSome_iff_exists.1 (show ((serverMachine Reference.crates).run
    (Server.start (emptyWorld true .none)) smallServerRun).isSome = true by decide +kernel)

theorem server_takes_turns_small :
    ∃ s turns, (serverMachine Reference.crates).run (Server.start (emptyWorld true .none))
        smallServerRun = some s ∧
      (takeTurns Reference.crates (emptyWorld true .none) turns).mutex = s.mutex := by
  obtain ⟨s, hs⟩ := exists_run_smallServerRun
  obtain ⟨turns, hmutex, -, -⟩ :=
    server_takes_turns Reference.crates (emptyWorld true .none) smallServerRun s hs
  exact ⟨s, turns, hs, hmutex⟩

/-! ## How long a client takes -/

/-- The action is a step of the client. -/
def ServerAct.isStepOf (id : ConnId) : ServerAct → Bool
  | .step id' => decide (id' = id)
  | _ => false

/-- At most so many steps are left to a client with so many frames in its unread input. -/
def Phase.stepsLeft (frames : Nat) : Phase → Nat
  | .reading => 3 * frames + 1
  | .locking _ => 3 * frames + 3
  | .writing _ => 3 * frames + 2
  | .closed _ => 0

/-- The steps that a client took and those that are left to it are three for each frame of its input
and one more. -/
def WithinSteps (past : List ServerAct) (id : ConnId) (rw : ReadWrite) (conn : Conn) : Prop :=
  ∀ bodies rest, Frames rw.input bodies rest → ∃ more rest', Frames conn.rw.input more rest' ∧
    past.countP (ServerAct.isStepOf id) + conn.phase.stepsLeft more.length ≤ 3 * bodies.length + 1

theorem stepsLeft_connStep {crates : Crates} {conn conn' : Conn} {mutex mutex' : AgentMutex}
    {events : List Event} (hstep : connStep crates (conn, mutex) = some ((conn', mutex'), events))
    {more : List Bytes} {rest : Bytes} (hmore : Frames conn.rw.input more rest) :
    ∃ more' rest', Frames conn'.rw.input more' rest' ∧
      conn'.phase.stepsLeft more'.length + 1 ≤ conn.phase.stepsLeft more.length := by
  rcases conn with ⟨info, rw, phase⟩
  cases phase with
  | closed result => cases hstep
  | reading =>
      simp only [connStep, Option.some.injEq, Prod.mk.injEq] at hstep
      obtain ⟨⟨rfl, rfl⟩, rfl⟩ := hstep
      generalize hinput : rw.input = whole at hmore
      cases hmore with
      | stop hstop =>
          obtain ⟨input, result, -, hread⟩ :=
            readFrame_of_stops ⟨info, rw, .reading⟩ (hinput ▸ hstop)
          obtain ⟨more', rest', hmore'⟩ := exists_frames input
          rw [hread]
          exact ⟨more', rest', hmore', Nat.le_refl 1⟩
      | @frame m input rest more hne hlt hmore =>
          rw [readFrame_of_frame ⟨info, rw, .reading⟩ hne hlt hinput]
          refine ⟨more, rest, hmore, ?_⟩
          show 3 * more.length + 3 + 1 ≤ 3 * (more.length + 1) + 1
          omega
  | locking buf =>
      simp only [connStep] at hstep
      split at hstep <;>
        simp only [Option.some.injEq, Prod.mk.injEq] at hstep <;> obtain ⟨⟨rfl, -⟩, -⟩ := hstep
      · exact ⟨more, rest, hmore, Nat.le_refl _⟩
      · exact ⟨more, rest, hmore, Nat.succ_le_of_lt (Nat.succ_pos _)⟩
  | writing resp =>
      simp only [connStep, ReadWrite.writeString_eq, ReadWrite.writeAll] at hstep
      by_cases hroom : Fits rw.room (writeString resp).length
      · rw [if_pos hroom] at hstep
        simp only [Option.some.injEq, Prod.mk.injEq] at hstep
        obtain ⟨⟨rfl, -⟩, -⟩ := hstep
        exact ⟨more, rest, hmore, Nat.le_refl _⟩
      · rw [if_neg hroom] at hstep
        simp only [Option.some.injEq, Prod.mk.injEq] at hstep
        obtain ⟨⟨rfl, -⟩, -⟩ := hstep
        exact ⟨more, rest, hmore, Nat.succ_le_of_lt (Nat.succ_pos _)⟩

theorem countP_isStepOf_concat (id : ConnId) (past : List ServerAct) (act : ServerAct) :
    (past ++ [act]).countP (ServerAct.isStepOf id) =
      past.countP (ServerAct.isStepOf id) + if act.isStepOf id then 1 else 0 := by
  rw [List.countP_append, List.countP_singleton]

/-- An action that is not a step of the client takes none of its steps. -/
theorem WithinSteps.concat {past : List ServerAct} {id : ConnId} {rw : ReadWrite} {conn : Conn}
    (h : WithinSteps past id rw conn) {act : ServerAct} (hact : act.isStepOf id = false) :
    WithinSteps (past ++ [act]) id rw conn := by
  intro bodies rest hframes
  rw [countP_isStepOf_concat, hact]
  exact h bodies rest hframes

/-- Every client that was accepted is within its steps, and nobody else took any. -/
structure Server.Bounded (past : List ServerAct) (s : Server) : Prop where
  accepted : ∀ id info rw, .accept id info rw ∈ past →
    ∃ conn, s.conns id = some conn ∧ WithinSteps past id rw conn
  unknown : ∀ id, s.conns id = none → past.countP (ServerAct.isStepOf id) = 0

theorem bounded_acceptConn {past : List ServerAct} {s s' : Server} {id : ConnId}
    {info : RequestInfo} {rw : ReadWrite} (h : s.Bounded past)
    (hstep : acceptConn s id info rw = some s') :
    s'.Bounded (past ++ [.accept id info rw]) := by
  rw [acceptConn] at hstep
  cases hid : s.conns id with
  | some conn => simp [hid] at hstep
  | none =>
      rw [hid] at hstep
      simp only [Option.some.injEq] at hstep
      subst hstep
      constructor
      · intro c info' rw' hmem
        rcases List.mem_append.1 hmem with hmem | hmem
        · obtain ⟨conn, hconn, hwithin⟩ := h.accepted c info' rw' hmem
          have hc : c ≠ id := by
            rintro rfl
            rw [hid] at hconn
            cases hconn
          exact ⟨conn, update_eq_some_iff.2 (Or.inr ⟨hc, hconn⟩), hwithin.concat rfl⟩
        · rw [List.mem_singleton, ServerAct.accept.injEq] at hmem
          obtain ⟨rfl, rfl, rfl⟩ := hmem
          refine ⟨_, update_eq_some_iff.2 (Or.inl ⟨rfl, rfl⟩), ?_⟩
          intro bodies rest hframes
          refine ⟨bodies, rest, hframes, ?_⟩
          rw [countP_isStepOf_concat, h.unknown c hid]
          exact Nat.le_of_eq (Nat.zero_add _)
      · intro c hconn
        rw [countP_isStepOf_concat, h.unknown c (update_eq_none_iff.1 hconn).2]
        rfl

theorem bounded_stepConn {crates : Crates} {past : List ServerAct} {s s' : Server} {id : ConnId}
    (h : s.Bounded past) (hstep : stepConn crates s id = some s') :
    s'.Bounded (past ++ [.step id]) := by
  obtain ⟨conn, conn', mutex, events, hid, hconn, rfl⟩ := stepConn_eq_some hstep
  have hother {c : ConnId} (hc : c ≠ id) : (ServerAct.step id).isStepOf c = false :=
    decide_eq_false (Ne.symm hc)
  constructor
  · intro c info rw hmem
    have hpast : .accept c info rw ∈ past := by simpa using hmem
    obtain ⟨conn'', hconn'', hwithin⟩ := h.accepted c info rw hpast
    by_cases hc : c = id
    · subst hc
      rw [hid, Option.some.injEq] at hconn''
      subst hconn''
      refine ⟨conn', update_eq_some_iff.2 (Or.inl ⟨rfl, rfl⟩), ?_⟩
      intro bodies rest hframes
      obtain ⟨more, rest', hmore, hle⟩ := hwithin bodies rest hframes
      obtain ⟨more', rest'', hmore', hless⟩ := stepsLeft_connStep hconn hmore
      refine ⟨more', rest'', hmore', ?_⟩
      have hself : (ServerAct.step c).isStepOf c = true := decide_eq_true rfl
      rw [countP_isStepOf_concat, hself, if_pos rfl]
      omega
    · exact ⟨conn'', update_eq_some_iff.2 (Or.inr ⟨hc, hconn''⟩), hwithin.concat (hother hc)⟩
  · intro c hnone
    obtain ⟨hc, hold⟩ := update_eq_none_iff.1 hnone
    rw [countP_isStepOf_concat, hother hc, h.unknown c hold]
    rfl

theorem bounded_step {crates : Crates} {past : List ServerAct} {s s' : Server} {act : ServerAct}
    (h : s.Bounded past) (hstep : (serverMachine crates).step s act = some s') :
    s'.Bounded (past ++ [act]) := by
  cases act with
  | accept id info rw => exact bounded_acceptConn h hstep
  | step id => exact bounded_stepConn h hstep
  | reload fault =>
      simp only [serverMachine, reloadServer] at hstep
      split at hstep
      · cases hstep
      · simp only [Option.some.injEq] at hstep
        subst hstep
        constructor
        · intro id info rw hmem
          have hpast : .accept id info rw ∈ past := by simpa using hmem
          obtain ⟨conn, hconn, hwithin⟩ := h.accepted id info rw hpast
          exact ⟨conn, hconn, hwithin.concat rfl⟩
        · intro id hnone
          rw [countP_isStepOf_concat, h.unknown id hnone]
          rfl

/-- The next step of the connection is the same for every state of the mutex, and leaves the mutex
as it is. -/
def Conn.GoesOn (crates : Crates) (conn : Conn) : Prop :=
  ∃ conn' events, ∀ mutex, connStep crates (conn, mutex) = some ((conn', mutex), events)

/-- An open connection needs the mutex at `lock()` and nowhere else. -/
theorem goesOn_or (crates : Crates) (conn : Conn) :
    (∃ result, conn.phase = .closed result) ∨ (∃ buf, conn.phase = .locking buf) ∨
      conn.GoesOn crates := by
  cases hphase : conn.phase with
  | closed result => exact Or.inl ⟨result, rfl⟩
  | locking buf => exact Or.inr (Or.inl ⟨buf, rfl⟩)
  | reading =>
      refine Or.inr (Or.inr ⟨conn.readFrame, [], fun mutex => ?_⟩)
      simp only [connStep, hphase]
  | writing resp =>
      rcases hwrite : conn.rw.writeString resp with ⟨outcome, rw⟩
      cases outcome with
      | ok u =>
          refine Or.inr (Or.inr ⟨{ conn with rw, phase := .reading }, [.reply resp],
            fun mutex => ?_⟩)
          simp only [connStep, hphase, hwrite]
      | err e =>
          refine Or.inr (Or.inr ⟨{ conn with rw, phase := .closed (.err e) }, [.reply resp],
            fun mutex => ?_⟩)
          simp only [connStep, hphase, hwrite]
      | panic =>
          refine Or.inr (Or.inr ⟨{ conn with rw, phase := .closed .panic }, [.reply resp],
            fun mutex => ?_⟩)
          simp only [connStep, hphase, hwrite]

/-- **No client is served for ever.** In any run, a client takes at most three steps for each frame
of its input and one more. Until its connection is closed, it waits for the other clients at
`lock()` and nowhere else. -/
theorem server_steps_le (crates : Crates) (w : World) (acts : List ServerAct) (s : Server)
    (hrun : (serverMachine crates).run (Server.start w) acts = some s) (id : ConnId)
    (info : RequestInfo) (rw : ReadWrite) (hacc : .accept id info rw ∈ acts) :
    (∀ bodies rest, Frames rw.input bodies rest →
      acts.countP (ServerAct.isStepOf id) ≤ 3 * bodies.length + 1) ∧
    ∃ conn, s.conns id = some conn ∧ ((∃ result, conn.phase = .closed result) ∨
      (∃ buf, conn.phase = .locking buf) ∨ conn.GoesOn crates) := by
  have h : s.Bounded acts := Machine.run_invariant_past_nil
    (I := fun past s => s.Bounded past) (fun _ _ _ _ hI hs => bounded_step hI hs) acts
    ⟨fun _ _ _ hmem => by simp at hmem, fun _ _ => rfl⟩ hrun
  obtain ⟨conn, hconn, hwithin⟩ := h.accepted id info rw hacc
  constructor
  · intro bodies rest hframes
    obtain ⟨more, rest', -, hle⟩ := hwithin bodies rest hframes
    omega
  · exact ⟨conn, hconn, goesOn_or crates conn⟩

/-- The second client of the small run lists the keys and is still open when the run ends. -/
theorem server_steps_le_small :
    smallServerRun.countP (ServerAct.isStepOf 1) ≤ 3 * 1 + 1 := by
  obtain ⟨s, hs⟩ := exists_run_smallServerRun
  refine (server_steps_le Reference.crates (emptyWorld true .none) smallServerRun s hs 1
    ⟨"Unix", none⟩
    { input := frame [sshAgentcRequestIdentities]
      atEnd := .unexpectedEof
      output := []
      room := none } (by simp [smallServerRun])).1 [[sshAgentcRequestIdentities]] [] ?_
  have hframes : Frames (frame [sshAgentcRequestIdentities] ++ []) [[sshAgentcRequestIdentities]]
      [] :=
    .frame (by decide) (by decide) (.stop (.shortLength (by decide)))
  rwa [List.append_nil] at hframes

/-! ## After a panic -/

/-- What a server with a poisoned mutex has done since it was `s`: nothing under the mutex, and of
the replies that waited to be written then, some are written, each once. -/
structure Server.DeadSince (s t : Server) : Prop where
  mutex : t.mutex = s.mutex
  late : ∃ late, t.log = s.log ++ late ∧ (late.map Prod.fst).Nodup ∧
    (∀ entry ∈ late, ∃ conn resp, entry.2 = .reply resp ∧ s.conns entry.1 = some conn ∧
      conn.phase = .writing resp) ∧
    ∀ id conn resp, t.conns id = some conn → conn.phase = .writing resp →
      id ∉ late.map Prod.fst ∧ ∃ conn', s.conns id = some conn' ∧ conn'.phase = .writing resp

theorem deadSince_refl (s : Server) : s.DeadSince s where
  mutex := rfl
  late := ⟨[], (List.append_nil _).symm, List.nodup_nil, by simp, fun id conn resp hconn hphase =>
    ⟨by simp, conn, hconn, hphase⟩⟩

theorem lockAndHandle_of_poisoned (crates : Crates) {mutex : AgentMutex}
    (h : mutex.poisoned = true) (call : Call) :
    lockAndHandle crates mutex call = (none, mutex, []) :=
  if_pos h

theorem deadSince_stepConn {crates : Crates} {s t t' : Server} {id : ConnId}
    (hp : s.mutex.poisoned = true) (h : s.DeadSince t) (hstep : stepConn crates t id = some t') :
    s.DeadSince t' := by
  obtain ⟨conn, conn', mutex, events, hid, hconn, rfl⟩ := stepConn_eq_some hstep
  obtain ⟨late, hlog, hnodup, hlate, hwaits⟩ := h.late
  -- a step that records nothing and leaves no reply to be written
  have hquiet (hmutex : mutex = t.mutex) (hevents : events = [])
      (hnot : ∀ resp, conn'.phase ≠ .writing resp) :
      s.DeadSince (t.record id conn' mutex events) := by
    subst hmutex
    subst hevents
    refine ⟨h.mutex, late, (List.append_nil _).trans hlog, hnodup, hlate, ?_⟩
    intro c conn'' resp hc hphase
    rcases update_eq_some_iff.1 hc with ⟨rfl, rfl⟩ | ⟨-, hold⟩
    · exact absurd hphase (hnot resp)
    · exact hwaits c conn'' resp hold hphase
  obtain ⟨-, hcases⟩ := connStep_cases hconn
  rcases hcases with ⟨-, hmutex, hevents, hnot⟩ | ⟨buf, answer, -, hlock, hwriting⟩ |
    ⟨resp, hphase, rfl, rfl, hnot⟩
  · exact hquiet hmutex hevents hnot
  -- a request meets the poisoned mutex
  · rw [lockAndHandle_of_poisoned crates (h.mutex ▸ hp)] at hlock
    simp only [Prod.mk.injEq] at hlock
    obtain ⟨rfl, rfl, rfl⟩ := hlock
    exact hquiet rfl rfl fun resp hresp => by simpa using hwriting resp hresp
  -- a reply that waited is written
  · obtain ⟨hnew, old, hold, holdPhase⟩ := hwaits id conn resp hid hphase
    refine ⟨h.mutex, late ++ [(id, .reply resp)], ?_, ?_, ?_, ?_⟩
    · show t.log ++ _ = _
      rw [hlog, List.append_assoc]
      rfl
    · rw [List.map_append, List.nodup_append]
      refine ⟨hnodup, by simp, ?_⟩
      rintro c hc c' hc' rfl
      rw [List.map_singleton, List.mem_singleton] at hc'
      have hid' : c = id := hc'
      exact hnew (hid' ▸ hc)
    · intro entry hentry
      rcases List.mem_append.1 hentry with hentry | hentry
      · exact hlate entry hentry
      · rw [List.mem_singleton.1 hentry]
        exact ⟨old, resp, rfl, hold, holdPhase⟩
    · intro c conn'' resp' hc hphase'
      rcases update_eq_some_iff.1 hc with ⟨rfl, rfl⟩ | ⟨hne, hold'⟩
      · exact absurd hphase' (hnot resp')
      · obtain ⟨hmem, hwaiting⟩ := hwaits c conn'' resp' hold' hphase'
        refine ⟨?_, hwaiting⟩
        rw [List.map_append, List.mem_append, not_or]
        exact ⟨hmem, by simpa using hne⟩

theorem deadSince_step {crates : Crates} {s t t' : Server} {act : ServerAct}
    (hp : s.mutex.poisoned = true) (h : s.DeadSince t)
    (hstep : (serverMachine crates).step t act = some t') : s.DeadSince t' := by
  cases act with
  | step id => exact deadSince_stepConn hp h hstep
  | reload fault =>
      have hpoisoned : t.mutex.poisoned = true := h.mutex ▸ hp
      simp only [serverMachine, reloadServer, hpoisoned, if_true] at hstep
      cases hstep
  | accept id info rw =>
      simp only [serverMachine, acceptConn] at hstep
      cases hid : t.conns id with
      | some conn => simp [hid] at hstep
      | none =>
          rw [hid] at hstep
          simp only [Option.some.injEq] at hstep
          subst hstep
          obtain ⟨late, hlog, hnodup, hlate, hwaits⟩ := h.late
          refine ⟨h.mutex, late, hlog, hnodup, hlate, ?_⟩
          intro c conn resp hconn hphase
          rcases update_eq_some_iff.1 hconn with ⟨rfl, rfl⟩ | ⟨-, hold⟩
          · cases hphase
          · exact hwaits c conn resp hold hphase

/-- **A panic is the end of the agent.** Once a request has panicked under the mutex, nothing is
handled, signed, asked or saved any more, on any connection: keys and file stay as they are, and all
that is still written are replies that waited when it happened, at most one to each client. -/
theorem poisoned_server_run (crates : Crates) (s t : Server) (acts : List ServerAct)
    (hp : s.mutex.poisoned = true) (hrun : (serverMachine crates).run s acts = some t) :
    s.DeadSince t :=
  Machine.run_invariant (fun _ _ _ hI hs => deadSince_step hp hI hs) acts (deadSince_refl s) hrun

/-- The first client sends a key whose exponents are reduced by zero, while a reply is about to be
written to the second one. -/
def panickingRun : List ServerAct :=
  [.accept 0 ⟨"Pipe", none⟩
      { input := frame (addIdentityRequest { smallKey with p := 1 } "k")
        atEnd := .unexpectedEof
        output := []
        room := none },
    .accept 1 ⟨"Unix", none⟩
      { input := frame [sshAgentcRequestIdentities] ++ frame [sshAgentcRequestIdentities]
        atEnd := .unexpectedEof
        output := []
        room := none },
    .step 1, .step 1, .step 0, .step 0]

theorem poisoned_server_run_small :
    ∃ s t, (serverMachine Reference.crates).run (Server.start (emptyWorld true .none))
        panickingRun = some s ∧
      (serverMachine Reference.crates).run s [.step 1, .step 1, .step 1] = some t ∧
      s.DeadSince t := by
  have hpoisoned : ((serverMachine Reference.crates).run (Server.start (emptyWorld true .none))
      panickingRun).map (fun s => s.mutex.poisoned) = some true := by decide +kernel
  have hlater : (((serverMachine Reference.crates).run (Server.start (emptyWorld true .none))
      panickingRun).bind fun s =>
        (serverMachine Reference.crates).run s [.step 1, .step 1, .step 1]).isSome = true := by
    decide +kernel
  obtain ⟨s, hs, hp⟩ := Option.map_eq_some_iff.1 hpoisoned
  rw [hs, Option.bind_some] at hlater
  obtain ⟨t, ht⟩ := Option.isSome_iff_exists.1 hlater
  exact ⟨s, t, hs, ht, poisoned_server_run Reference.crates s t _ hp ht⟩

end SshKeys
