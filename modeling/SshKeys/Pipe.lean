import SshKeys.Pageant
import SshKeys.Lib.Io

/-!
# Transports that move a part at a time

`connection_handler` of `utils.rs` as it is written, over the trait `ReadWrite`: every read and
write is a loop of calls that each move a part (`connectionHandlerOn`). `Carries` says what a
transport has to do, and `connectionHandlerOn_follows` that the loop then does over the transport
what the loop of `Connection` does over the bytes.

The transports are the named pipe of `platform/win/pipe.rs`, whose calls move what is there
(`pipe_serves_stream`), and the cursor over a file mapping of `platform/win/pageant`.
-/

set_option autoImplicit false

namespace SshKeys

open Lib Lib.Io

/-! ## The trait -/

universe u

/-- `ReadWrite`: a call of `Read::read` with the length of its buffer, and one of `Write::write`. -/
structure ReadWriter (τ : Type u) where
  read : Nat → τ → Except ErrorKind Bytes × τ
  write : Bytes → τ → Except ErrorKind Nat × τ

namespace ReadWriter

variable {τ : Type u} (io : ReadWriter τ)

/-- `read_exact` -/
def readExact (n : Nat) (t : τ) : Except ErrorKind Bytes × τ :=
  Io.readExact io.read .unexpectedEof n t

/-- `read_u32::<BigEndian>` -/
def readU32 (t : τ) : Except ErrorKind Nat × τ :=
  match io.readExact 4 t with
  | (.ok word, t') => (.ok (BigEndian.ofBytes word), t')
  | (.error kind, t') => (.error kind, t')

/-- `write_all`, which ends in `WriteZero` when nothing is taken. -/
def writeAll (data : Bytes) (t : τ) : Except ErrorKind Unit × τ :=
  Io.writeAll io.write .other data t

/-- `write_string` -/
def writeString (data : Bytes) (t : τ) : Except ErrorKind Unit × τ :=
  match io.writeAll (writeU32 (data.length % 2 ^ 32)) t with
  | (.ok (), t') => io.writeAll data t'
  | (.error kind, t') => (.error kind, t')

/-- The transport carries the bytes of `view`, if no buffer of `limit` bytes is written. -/
structure Carries (limit : Nat) (view : τ → ReadWrite) : Prop where
  reads : Reads io.read .unexpectedEof (fun t => (view t).input) (fun t => (view t).atEnd)
    (fun t => ((view t).output, (view t).room))
  writes : Writes io.write limit (fun t => (view t).output) (fun t => (view t).room)
    (fun t => ((view t).input, (view t).atEnd))

variable {io} {limit : Nat} {view : τ → ReadWrite}

theorem Carries.readExact_of_le (h : io.Carries limit view) {n : Nat} {t : τ}
    (hle : n ≤ (view t).input.length) :
    ∃ t', io.readExact n t = (.ok ((view t).input.take n), t') ∧
      view t' = { view t with input := (view t).input.drop n } := by
  obtain ⟨t', hread, hinput, hend, hframe⟩ := Io.readExact_of_le h.reads hle
  rw [Prod.mk.injEq] at hframe
  refine ⟨t', hread, ?_⟩
  rcases hview : view t' with ⟨input, atEnd, output, room⟩
  simp only [hview] at hinput hend hframe
  rw [hinput, hend, hframe.1, hframe.2]

theorem Carries.readExact_of_lt (h : io.Carries limit view) {n : Nat} {t : τ}
    (hlt : (view t).input.length < n) :
    ∃ t', io.readExact n t = (.error (view t).atEnd, t') ∧ (view t').output = (view t).output := by
  obtain ⟨t', hread, hframe⟩ := Io.readExact_of_lt h.reads hlt
  rw [Prod.mk.injEq] at hframe
  exact ⟨t', hread, hframe.1⟩

theorem Carries.writeAll_input (h : io.Carries limit view) (data : Bytes) (t : τ) :
    (view (io.writeAll data t).2).input = (view t).input :=
  congrArg Prod.fst (Io.writeAll_frame ErrorKind.other h.writes data t)

theorem Carries.writeString_input (h : io.Carries limit view) (data : Bytes) (t : τ) :
    (view (io.writeString data t).2).input = (view t).input := by
  have hlen := h.writeAll_input (writeU32 (data.length % 2 ^ 32)) t
  rw [writeString]
  rcases hwrite : io.writeAll (writeU32 (data.length % 2 ^ 32)) t with ⟨outcome, t'⟩
  rw [hwrite] at hlen
  cases outcome with
  | error kind => exact hlen
  | ok u => exact (h.writeAll_input data t').trans hlen

/-- What fits is written as over the bytes, -/
theorem Carries.writeAll_of_fits (h : io.Carries limit view) {data : Bytes} {t : τ}
    (hlen : data.length < limit) (hfits : Fits (view t).room data.length) :
    ∃ t', io.writeAll data t = (.ok (), t') ∧ view t' = (view t).put data := by
  obtain ⟨t', hwrite, houtput, hroom⟩ := Io.writeAll_of_le .other h.writes hlen hfits
  have hframe := Io.writeAll_frame .other h.writes data t
  rw [hwrite, Prod.mk.injEq] at hframe
  refine ⟨t', hwrite, ?_⟩
  have hcut : cut (view t).room data = data := by
    cases hr : (view t).room with
    | none => rfl
    | some r => exact List.take_of_length_le (hfits r hr)
  rcases hview : view t' with ⟨input, atEnd, output, room⟩
  simp only [hview] at houtput hroom hframe
  rw [ReadWrite.put, hcut, houtput, hroom, hframe.1, hframe.2]

/-- and of what does not fit, the same part. -/
theorem Carries.writeAll_of_not_fits (h : io.Carries limit view) {data : Bytes} {t : τ}
    (hlen : data.length < limit) (hfits : ¬ Fits (view t).room data.length) :
    ∃ t' kind, io.writeAll data t = (.error kind, t') ∧
      (view t').output = ((view t).put data).output := by
  cases hr : (view t).room with
  | none => exact absurd (fun r hmem => by rw [hr] at hmem; cases hmem) hfits
  | some r =>
      have hlt : r < data.length := by
        rw [hr] at hfits
        simpa [Fits] using hfits
      obtain ⟨t', kind, hwrite, houtput⟩ :=
        Io.writeAll_of_lt .other h.writes hlen hr hlt
      refine ⟨t', kind, hwrite, houtput.trans ?_⟩
      rw [ReadWrite.put, hr]
      rfl

end ReadWriter

/-! ## The loop -/

/-- A connection over a transport. -/
structure Served (τ : Type u) where
  info : RequestInfo
  rw : τ
  phase : Phase

section Loop

variable {τ : Type u} (io : ReadWriter τ)

/-- A length and as many bytes are read from the stream, whatever it is. -/
def Served.readFrame (conn : Served τ) : Served τ :=
  match io.readU32 conn.rw with
  | (.ok len, rw) =>
      if len = 0 then { conn with rw, phase := .closed (.ok ()) }
      else
        match io.readExact len rw with
        | (.ok buf, rw) => { conn with rw, phase := .locking buf }
        | (.error kind, rw) => { conn with rw, phase := .closed (.err (.io kind)) }
  | (.error kind, rw) =>
      if kind = .unexpectedEof ∨ kind = .brokenPipe then
        { conn with rw, phase := .closed (.ok ()) }
      else { conn with rw, phase := .closed (.err (.io kind)) }

/-- `connStep` of a connection whose stream is any reader and writer. -/
def connStepOn (crates : Crates) :
    Served τ × AgentMutex → Option ((Served τ × AgentMutex) × List Event)
  | (conn, mutex) =>
      match conn.phase with
      | .closed _ => none
      | .reading => some ((conn.readFrame io, mutex), [])
      | .locking buf =>
          match lockAndHandle crates mutex { info := conn.info, buf } with
          | (some resp, mutex', events) =>
              some (({ conn with phase := .writing resp }, mutex'), events)
          | (none, mutex', events) =>
              some (({ conn with phase := .closed .panic }, mutex'), events)
      | .writing resp =>
          match io.writeString resp conn.rw with
          | (.ok (), rw) => some (({ conn with rw, phase := .reading }, mutex), [.reply resp])
          | (.error kind, rw) =>
              some (({ conn with rw, phase := .closed (.err (.io kind)) }, mutex), [.reply resp])

variable {io} {limit : Nat} {view : τ → ReadWrite}

/-- The connection over the bytes. -/
def Served.flat (view : τ → ReadWrite) (conn : Served τ) : Conn :=
  { info := conn.info, rw := view conn.rw, phase := conn.phase }

/-- The loop over the transport is where the loop over the bytes is. The kind of the error that a
write ended in is left open. -/
inductive Phase.Matches : Phase → Phase → Prop where
  | same (phase : Phase) : Phase.Matches phase phase
  | writeError (kind : ErrorKind) :
      Phase.Matches (.closed (.err (.io .other))) (.closed (.err (.io kind)))

/-- The same connection, over the bytes and over the transport. What is left to read is compared
until the connection is closed. -/
structure Follows (view : τ → ReadWrite) (conn : Conn) (served : Served τ) : Prop where
  info : served.info = conn.info
  phase : conn.phase.Matches served.phase
  output : (view served.rw).output = conn.rw.output
  isOpen : (∀ result, conn.phase ≠ .closed result) → view served.rw = conn.rw

theorem follows_flat (view : τ → ReadWrite) (served : Served τ) :
    Follows view (served.flat view) served :=
  ⟨rfl, .same _, rfl, fun _ => rfl⟩

theorem follows_closed {conn : Conn} {served : Served τ} {input : Bytes}
    {result : Outcome Error Unit} {t : τ} (hinfo : served.info = conn.info)
    (houtput : (view t).output = conn.rw.output) :
    Follows view (conn.goto input (.closed result))
      { served with rw := t, phase := .closed result } :=
  ⟨hinfo, .same _, houtput, fun hopen => absurd rfl (hopen result)⟩

theorem readU32_of_le {input : Bytes} (h : 4 ≤ input.length) :
    SshKeys.readU32 input = .ok (BigEndian.ofBytes (input.take 4), input.drop 4) := by
  rcases input with _ | ⟨b₀, _ | ⟨b₁, _ | ⟨b₂, _ | ⟨b₃, tail⟩⟩⟩⟩
  case cons.cons.cons.cons =>
      show Outcome.ok (BigEndian.ofWord b₀ b₁ b₂ b₃, tail) =
        .ok (BigEndian.ofBytes [b₀, b₁, b₂, b₃], tail)
      have hword : BigEndian.ofWord b₀ b₁ b₂ b₃ = BigEndian.ofBytes [b₀, b₁, b₂, b₃] := by
        simp only [BigEndian.ofWord, BigEndian.ofBytes, List.foldl_cons, List.foldl_nil]
        omega
      rw [hword]
  all_goals exact absurd h (by simp)

theorem readU32_of_lt {input : Bytes} (h : input.length < 4) :
    SshKeys.readU32 input = .err (.io .unexpectedEof) := by
  rcases input with _ | ⟨b₀, _ | ⟨b₁, _ | ⟨b₂, _ | ⟨b₃, tail⟩⟩⟩⟩
  case cons.cons.cons.cons => exact absurd h (by simp)
  all_goals rfl

/-- Reading a frame in parts is reading it from the bytes. -/
theorem follows_readFrame (h : io.Carries limit view) (served : Served τ) :
    Follows view (Conn.readFrame (served.flat view)) (served.readFrame io) := by
  have hinput : (served.flat view).rw.input = (view served.rw).input := rfl
  by_cases hword : 4 ≤ (view served.rw).input.length
  · obtain ⟨t, hread, hview⟩ := h.readExact_of_le hword
    have hreadU32 : io.readU32 served.rw =
        (.ok (BigEndian.ofBytes ((view served.rw).input.take 4)), t) := by
      rw [ReadWriter.readU32, hread]
    rw [Conn.readFrame, hinput, readU32_of_le hword, Served.readFrame, hreadU32]
    generalize BigEndian.ofBytes ((view served.rw).input.take 4) = len
    simp only
    have houtput : (view t).output = (view served.rw).output := by rw [hview]
    by_cases hzero : len = 0
    · rw [if_pos hzero, if_pos hzero]
      exact follows_closed rfl houtput
    rw [if_neg hzero, if_neg hzero]
    have htail : (view t).input = (view served.rw).input.drop 4 := by rw [hview]
    -- the body is there, or the input ends in it
    by_cases hbody : len ≤ (view t).input.length
    · obtain ⟨t', hread', hview'⟩ := h.readExact_of_le hbody
      rw [hread', SshKeys.readExact, ← htail, if_pos hbody]
      refine ⟨rfl, .same _, ?_, fun _ => ?_⟩
      · rw [hview', hview]
        rfl
      · rw [hview', hview]
        rfl
    · obtain ⟨t', hread', houtput'⟩ := h.readExact_of_lt (Nat.lt_of_not_le hbody)
      have hend : (view t).atEnd = (view served.rw).atEnd := by rw [hview]
      rw [hread', SshKeys.readExact, ← htail, if_neg hbody, hend]
      exact follows_closed rfl (houtput'.trans houtput)
  · obtain ⟨t, hread, houtput⟩ := h.readExact_of_lt (Nat.lt_of_not_le hword)
    have hreadU32 : io.readU32 served.rw = (.error (view served.rw).atEnd, t) := by
      rw [ReadWriter.readU32, hread]
    rw [Conn.readFrame, hinput, readU32_of_lt (Nat.lt_of_not_le hword), Conn.noLength,
      Served.readFrame, hreadU32]
    have hend : (served.flat view).rw.atEnd = (view served.rw).atEnd := rfl
    simp only [hend]
    split
    · exact follows_closed rfl houtput
    · exact follows_closed rfl houtput

/-- Writing a reply in parts is writing it to the bytes. -/
theorem follows_writeString (h : io.Carries limit view) (hword : 4 < limit) (served : Served τ)
    {resp : Bytes} (hlen : resp.length < limit) :
    (∃ t, io.writeString resp served.rw = (.ok (), t) ∧
      (view served.rw).writeString resp = (.ok (), view t)) ∨
    ∃ t kind rw, io.writeString resp served.rw = (.error kind, t) ∧
      (view served.rw).writeString resp = (.err (.io .other), rw) ∧
      (view t).output = rw.output := by
  rw [ReadWriter.writeString, ReadWrite.writeString, ReadWrite.writeAll]
  by_cases hhead : Fits (view served.rw).room (writeU32 (resp.length % 2 ^ 32)).length
  · obtain ⟨t, hwrite, hview⟩ := h.writeAll_of_fits (by rwa [length_writeU32]) hhead
    rw [hwrite, if_pos hhead, ← hview]
    simp only [ReadWrite.writeAll]
    by_cases hbody : Fits (view t).room resp.length
    · obtain ⟨t', hwrite', hview'⟩ := h.writeAll_of_fits hlen hbody
      rw [if_pos hbody, ← hview']
      exact Or.inl ⟨t', hwrite', rfl⟩
    · obtain ⟨t', kind, hwrite', houtput⟩ := h.writeAll_of_not_fits hlen hbody
      rw [if_neg hbody]
      exact Or.inr ⟨t', kind, _, hwrite', rfl, houtput⟩
  · obtain ⟨t, kind, hwrite, houtput⟩ := h.writeAll_of_not_fits (by rwa [length_writeU32]) hhead
    rw [hwrite, if_neg hhead]
    exact Or.inr ⟨t, kind, _, rfl, rfl, houtput⟩

theorem Phase.Matches.eq_of_open {phase phase' : Phase} (h : phase.Matches phase')
    (hopen : ∀ result, phase ≠ .closed result) : phase' = phase := by
  cases h with
  | same => rfl
  | writeError kind => exact absurd rfl (hopen _)

/-- A closed connection has no step on either side. -/
theorem connStepOn_of_closed {crates : Crates} {conn : Conn} {served : Served τ}
    {mutex : AgentMutex} (h : Follows view conn served)
    (hclosed : connStep crates (conn, mutex) = none) :
    connStepOn io crates (served, mutex) = none := by
  rcases conn with ⟨info, rw, phase⟩
  have hmatches : phase.Matches served.phase := h.phase
  cases phase with
  | reading => cases hclosed
  | locking buf =>
      simp only [connStep] at hclosed
      split at hclosed <;> cases hclosed
  | writing resp =>
      simp only [connStep] at hclosed
      split at hclosed <;> cases hclosed
  | closed result =>
      rw [connStepOn]
      generalize served.phase = phase' at hmatches
      cases hmatches with
      | same => rfl
      | writeError kind => rfl

/-- The loop over the transport takes the step that the loop over the bytes takes. -/
theorem connStepOn_of_connStep (hcarries : io.Carries limit view) (hword : 4 < limit)
    {crates : Crates} {conn conn' : Conn} {served : Served τ} {mutex mutex' : AgentMutex}
    {events : List Event} (h : Follows view conn served)
    (hstep : connStep crates (conn, mutex) = some ((conn', mutex'), events))
    (hshort : ∀ resp, .reply resp ∈ events → resp.length < limit) :
    ∃ served', connStepOn io crates (served, mutex) = some ((served', mutex'), events) ∧
      Follows view conn' served' := by
  -- a connection with a step is open, so it is the same on both sides
  have hopen : ∀ result, conn.phase ≠ .closed result := by
    intro result hclosed
    rw [connStep] at hstep
    simp only [hclosed] at hstep
    cases hstep
  have hflat : conn = served.flat view := by
    rcases conn with ⟨info, rw, phase⟩
    show _ = Conn.mk served.info (view served.rw) served.phase
    rw [h.info, h.isOpen hopen, h.phase.eq_of_open hopen]
  subst hflat
  clear h
  rcases served with ⟨info, t, phase⟩
  cases phase with
  | closed result => exact absurd rfl (hopen result)
  | reading =>
      simp only [connStep, Served.flat, Option.some.injEq, Prod.mk.injEq] at hstep
      obtain ⟨⟨rfl, rfl⟩, rfl⟩ := hstep
      exact ⟨_, rfl, follows_readFrame hcarries ⟨info, t, .reading⟩⟩
  | locking buf =>
      rcases hlock : lockAndHandle crates mutex ⟨info, buf⟩ with ⟨_ | resp, mutex'', events'⟩
      · simp only [connStep, Served.flat, hlock, Option.some.injEq, Prod.mk.injEq] at hstep
        obtain ⟨⟨rfl, rfl⟩, rfl⟩ := hstep
        simp only [connStepOn, hlock]
        exact ⟨_, rfl, rfl, .same _, rfl, fun _ => rfl⟩
      · simp only [connStep, Served.flat, hlock, Option.some.injEq, Prod.mk.injEq] at hstep
        obtain ⟨⟨rfl, rfl⟩, rfl⟩ := hstep
        simp only [connStepOn, hlock]
        exact ⟨_, rfl, rfl, .same _, rfl, fun _ => rfl⟩
  | writing resp =>
      have hevents : events = [.reply resp] := by
        simp only [connStep, Served.flat] at hstep
        split at hstep <;> simp only [Option.some.injEq, Prod.mk.injEq] at hstep <;>
          exact hstep.2.symm
      have hlen := hshort resp (by rw [hevents]; exact List.mem_singleton_self _)
      rcases follows_writeString hcarries hword ⟨info, t, .writing resp⟩ hlen with
        ⟨t', hwrite, hflat⟩ | ⟨t', kind, rw', hwrite, hflat, houtput⟩
      · simp only [connStep, Served.flat, hflat, Option.some.injEq, Prod.mk.injEq] at hstep
        obtain ⟨⟨rfl, rfl⟩, rfl⟩ := hstep
        simp only at hwrite
        simp only [connStepOn, hwrite]
        exact ⟨_, rfl, rfl, .same _, rfl, fun _ => rfl⟩
      · simp only [connStep, Served.flat, hflat, Option.some.injEq, Prod.mk.injEq] at hstep
        obtain ⟨⟨rfl, rfl⟩, rfl⟩ := hstep
        simp only at hwrite
        simp only [connStepOn, hwrite]
        exact ⟨_, rfl, rfl, .writeError kind, houtput, fun hnot => absurd rfl (hnot _)⟩

theorem remaining_of_follows {conn : Conn} {served : Served τ} (h : Follows view conn served) :
    (served.flat view).remaining = conn.remaining := by
  rcases conn with ⟨info, rw, phase⟩
  have hmatches : phase.Matches served.phase := h.phase
  cases phase with
  | closed result =>
      have hclosed : ∃ result', served.phase = .closed result' := by
        generalize served.phase = phase' at hmatches
        cases hmatches with
        | same => exact ⟨_, rfl⟩
        | writeError kind => exact ⟨_, rfl⟩
      obtain ⟨result', hclosed⟩ := hclosed
      rw [Served.flat, hclosed]
      rfl
  | reading =>
      have hview := h.isOpen (by simp)
      have hphase := hmatches.eq_of_open (by simp)
      rw [Served.flat, hview, hphase]
      rfl
  | locking buf =>
      have hview := h.isOpen (by simp)
      have hphase := hmatches.eq_of_open (by simp)
      rw [Served.flat, hview, hphase]
      rfl
  | writing resp =>
      have hview := h.isOpen (by simp)
      have hphase := hmatches.eq_of_open (by simp)
      rw [Served.flat, hview, hphase]
      rfl

theorem connStepOn_remaining_lt (h : io.Carries limit view) {crates : Crates}
    {s s' : Served τ × AgentMutex} {events : List Event}
    (hstep : connStepOn io crates s = some (s', events)) :
    (s'.1.flat view).remaining < (s.1.flat view).remaining := by
  rcases s with ⟨⟨info, t, phase⟩, mutex⟩
  cases phase with
  | closed result => cases hstep
  | reading =>
      simp only [connStepOn, Option.some.injEq, Prod.mk.injEq] at hstep
      obtain ⟨rfl, -⟩ := hstep
      rw [remaining_of_follows (follows_readFrame h ⟨info, t, .reading⟩)]
      exact connStep_remaining_lt
        (show connStep crates (Served.flat view ⟨info, t, .reading⟩, mutex) = some (_, _) from rfl)
  | locking buf =>
      simp only [connStepOn] at hstep
      split at hstep <;> simp only [Option.some.injEq, Prod.mk.injEq] at hstep <;>
        obtain ⟨rfl, -⟩ := hstep
      · exact Nat.lt_succ_self _
      · exact Nat.succ_pos _
  | writing resp =>
      have hinput := h.writeString_input resp t
      simp only [connStepOn] at hstep
      split at hstep <;> simp only [Option.some.injEq, Prod.mk.injEq] at hstep <;>
        obtain ⟨rfl, -⟩ := hstep
      · next hwrite =>
          rw [hwrite] at hinput
          show 3 * _ + 1 < 3 * (view t).input.length + 2
          rw [← hinput]
          exact Nat.lt_succ_self _
      · exact Nat.succ_pos _

/-- `connection_handler` -/
def connectionHandlerOn (h : io.Carries limit view) (crates : Crates) :
    Loop (Served τ × AgentMutex) Event where
  step := connStepOn io crates
  measure s := (s.1.flat view).remaining
  decreases hstep := connStepOn_remaining_lt h hstep

/-- **The loop over a transport.** If no reply has `limit` bytes, the loop over the transport ends
as the loop over its bytes does: with the same events, the same mutex, the same bytes written, and
for the same reason. -/
theorem connectionHandlerOn_follows (h : io.Carries limit view) (hword : 4 < limit)
    (crates : Crates) (info : RequestInfo) (t : τ) (mutex : AgentMutex)
    (hshort : ∀ resp, .reply resp ∈ ((connectionHandler crates).run
      ({ info, rw := view t, phase := .reading }, mutex)).2 → resp.length < limit) :
    Follows view ((connectionHandler crates).run
        ({ info, rw := view t, phase := .reading }, mutex)).1.1
      ((connectionHandlerOn h crates).run ({ info, rw := t, phase := .reading }, mutex)).1.1 ∧
    ((connectionHandlerOn h crates).run ({ info, rw := t, phase := .reading }, mutex)).1.2 =
      ((connectionHandler crates).run ({ info, rw := view t, phase := .reading }, mutex)).1.2 ∧
    ((connectionHandlerOn h crates).run ({ info, rw := t, phase := .reading }, mutex)).2 =
      ((connectionHandler crates).run ({ info, rw := view t, phase := .reading }, mutex)).2 := by
  have hrel := Loop.run_related (L := connectionHandler crates) (K := connectionHandlerOn h crates)
    (R := fun s s' => Follows view s.1 s'.1 ∧ s'.2 = s.2)
    (P := fun event => ∀ resp, event = .reply resp → resp.length < limit) ?_ ?_
    (s := ({ info, rw := view t, phase := .reading }, mutex))
    (t := ({ info, rw := t, phase := .reading }, mutex))
    ⟨follows_flat view ⟨info, t, .reading⟩, rfl⟩ ?_
  · exact ⟨hrel.1.1, hrel.1.2, hrel.2⟩
  · rintro ⟨conn, mutex⟩ ⟨served, mutex'⟩ ⟨hfollows, rfl⟩ hstop
    exact connStepOn_of_closed hfollows hstop
  · rintro ⟨conn, mutex⟩ ⟨served, mutex'⟩ ⟨conn', mutex''⟩ events ⟨hfollows, rfl⟩ hstep hall
    obtain ⟨served', hserved, hfollows'⟩ := connStepOn_of_connStep h hword hfollows hstep
      fun resp hmem => hall _ hmem resp rfl
    exact ⟨(served', mutex''), hserved, hfollows', rfl⟩
  · rintro event hevent resp rfl
    exact hshort resp hevent

end Loop

/-! ## The named pipe -/

/-- The server's end of a named pipe. -/
structure Pipe where
  /-- What the client writes, in the pieces in which `ReadFile` finds it. An empty piece is a write
  of no bytes. -/
  pieces : List Bytes
  /-- What `ReadFile` fails with after the last piece. -/
  readError : ErrorKind
  received : Bytes
  /-- How much the client takes before `WriteFile` fails. -/
  room : Option Nat
  /-- The next calls of `WriteFile` take one byte more than this, at most. -/
  grants : Stream' Nat
  writeError : ErrorKind

namespace Pipe

/-- `Read for Pipe` -/
def read (n : Nat) (pipe : Pipe) : Except ErrorKind Bytes × Pipe :=
  match pipe.pieces with
  | [] => (.error pipe.readError, pipe)
  | piece :: pieces =>
      (.ok (piece.take n),
        { pipe with pieces := if piece.length ≤ n then pieces else piece.drop n :: pieces })

/-- `Write for Pipe` -/
def write (buf : Bytes) (pipe : Pipe) : Except ErrorKind Nat × Pipe :=
  if pipe.room = some 0 then (.error pipe.writeError, pipe)
  else
    -- `buf.len() as u32`
    let asked := min (buf.length % 2 ^ 32) (pipe.grants.head + 1)
    let written := pipe.room.elim asked (min asked)
    (.ok written, { pipe with
      received := pipe.received ++ buf.take written
      room := pipe.room.map fun r => r - written
      grants := pipe.grants.tail })

/-- `ReadWrite for Pipe` -/
def readWrite : ReadWriter Pipe := { read, write }

/-- The bytes of the pipe. A write of no bytes is the end of them for `read_exact`. -/
def view (pipe : Pipe) : ReadWrite where
  input := (pipe.pieces.takeWhile fun piece => piece ≠ []).flatten
  atEnd := if [] ∈ pipe.pieces then .unexpectedEof else pipe.readError
  output := pipe.received
  room := pipe.room

theorem view_of_cons (pipe : Pipe) {piece : Bytes} {pieces : List Bytes}
    (h : pipe.pieces = piece :: pieces) (hne : piece ≠ []) :
    pipe.view.input = piece ++ ({ pipe with pieces } : Pipe).view.input ∧
      pipe.view.atEnd = ({ pipe with pieces } : Pipe).view.atEnd := by
  constructor
  · simp [view, h, hne]
  · simp [view, h, hne.symm]

theorem reads_readWrite : Reads read .unexpectedEof (fun pipe => pipe.view.input)
    (fun pipe => pipe.view.atEnd) (fun pipe => (pipe.view.output, pipe.view.room)) where
  some := by
    intro n pipe pipe' b data hn h
    rcases hpieces : pipe.pieces with _ | ⟨piece, pieces⟩
    · simp [read, hpieces] at h
    simp only [read, hpieces, Prod.mk.injEq, Except.ok.injEq] at h
    obtain ⟨htake, rfl⟩ := h
    have hlen : data.length < n := by
      have hle := List.length_take_le n piece
      rw [htake, List.length_cons] at hle
      omega
    have hne : piece ≠ [] := by
      rintro rfl
      simp at htake
    obtain ⟨hinput, hend⟩ := view_of_cons pipe hpieces hne
    by_cases hall : piece.length ≤ n
    · simp only [if_pos hall]
      rw [List.take_of_length_le hall] at htake
      exact ⟨hlen, by rw [hinput, htake], hend.symm⟩
    -- the rest of the piece stays in front
    · simp only [if_neg hall]
      have hrest : piece.drop n ≠ [] := by
        intro hnil
        exact hall (List.drop_eq_nil_iff.1 hnil)
      obtain ⟨hinput', hend'⟩ :=
        view_of_cons { pipe with pieces := piece.drop n :: pieces } rfl hrest
      refine ⟨hlen, ?_, hend'.trans hend.symm⟩
      rw [hinput', hinput, ← htake, ← List.append_assoc, List.take_append_drop]
  none := by
    intro n pipe pipe' hn h
    rcases hpieces : pipe.pieces with _ | ⟨piece, pieces⟩
    · simp [read, hpieces] at h
    simp only [read, hpieces, Prod.mk.injEq, Except.ok.injEq] at h
    have hnil : piece = [] := by
      rcases List.take_eq_nil_iff.1 h.1 with hzero | hnil
      · omega
      · exact hnil
    simp [view, hpieces, hnil]
  error := by
    intro n pipe pipe' e hn h
    rcases hpieces : pipe.pieces with _ | ⟨piece, pieces⟩
    · simp only [read, hpieces, Prod.mk.injEq, Except.error.injEq] at h
      simp [view, hpieces, h.1]
    · simp [read, hpieces] at h
  frame n pipe := by
    rw [read]
    split <;> rfl

theorem writes_readWrite : Writes write (2 ^ 32) (fun pipe => pipe.view.output)
    (fun pipe => pipe.view.room) (fun pipe => (pipe.view.input, pipe.view.atEnd)) where
  some := by
    intro k buf pipe pipe' hlen h
    rw [write, Nat.mod_eq_of_lt hlen] at h
    split at h
    · cases h
    · simp only [Prod.mk.injEq, Except.ok.injEq] at h
      obtain ⟨hwritten, rfl⟩ := h
      simp only [hwritten]
      refine ⟨?_, ?_, rfl, rfl⟩
      · cases hroom : pipe.room <;> rw [hroom] at hwritten <;>
          simp only [Option.elim_none, Option.elim_some] at hwritten <;> omega
      · intro r hr
        rw [show pipe.room = some r from hr, Option.elim_some] at hwritten
        omega
  none := by
    intro buf pipe pipe' hne hlen h
    rw [write, Nat.mod_eq_of_lt hlen] at h
    have hpos := List.length_pos_of_ne_nil hne
    split at h
    · cases h
    · next hroom =>
        simp only [Prod.mk.injEq, Except.ok.injEq] at h
        have hzero := h.1
        cases hr : pipe.room with
        | none =>
            rw [hr, Option.elim_none] at hzero
            omega
        | some r =>
            rw [hr, Option.some.injEq] at hroom
            rw [hr, Option.elim_some] at hzero
            omega
  error := by
    intro buf pipe pipe' e hne hlen h
    rw [write] at h
    split at h
    · next hroom =>
        simp only [Prod.mk.injEq] at h
        rw [← h.2]
        exact ⟨hroom, rfl⟩
    · cases h
  frame buf pipe := by
    rw [write]
    split <;> rfl

theorem carries_readWrite : readWrite.Carries (2 ^ 32) view := ⟨reads_readWrite, writes_readWrite⟩

end Pipe

/-- What the thread of `listen_named_pipe` leaves behind. -/
structure PipeDone where
  pipe : Pipe
  mutex : AgentMutex
  events : List Event
  /-- `DisconnectNamedPipe` and `CloseHandle` were called. -/
  disconnected : Bool
  phase : Phase

/-- The thread that `listen_named_pipe` starts for a client. A panic leaves the handle open. -/
def pipeThread (crates : Crates) (requester : Option RequesterInfo) (pipe : Pipe)
    (mutex : AgentMutex) : PipeDone :=
  let done := (connectionHandlerOn Pipe.carries_readWrite crates).run
    ({ info := { channel := "Pipe", requester }, rw := pipe, phase := .reading }, mutex)
  { pipe := done.1.1.rw
    mutex := done.1.2
    events := done.2
    disconnected := decide (done.1.1.phase ≠ .closed .panic)
    phase := done.1.1.phase }

/-- The loop of `Connection` over the bytes of the pipe. -/
def pipeStream (crates : Crates) (requester : Option RequesterInfo) (pipe : Pipe)
    (mutex : AgentMutex) : (Conn × AgentMutex) × List Event :=
  (connectionHandler crates).run
    ({ info := { channel := "Pipe", requester }, rw := pipe.view, phase := .reading }, mutex)

/-- No reply has so many bytes that their number does not fit into 32 bits. -/
def ShortEvents (events : List Event) : Prop := ∀ resp, .reply resp ∈ events → resp.length < 2 ^ 32

theorem pipeThread_follows (crates : Crates) (requester : Option RequesterInfo) (pipe : Pipe)
    (mutex : AgentMutex) (hshort : ShortEvents (pipeStream crates requester pipe mutex).2) :
    (pipeThread crates requester pipe mutex).events =
        (pipeStream crates requester pipe mutex).2 ∧
      (pipeThread crates requester pipe mutex).mutex =
        (pipeStream crates requester pipe mutex).1.2 ∧
      (pipeThread crates requester pipe mutex).pipe.received =
        (pipeStream crates requester pipe mutex).1.1.rw.output ∧
      (pipeStream crates requester pipe mutex).1.1.phase.Matches
        (pipeThread crates requester pipe mutex).phase := by
  obtain ⟨hfollows, hmutex, hevents⟩ := connectionHandlerOn_follows Pipe.carries_readWrite
    (by norm_num) crates { channel := "Pipe", requester } pipe mutex hshort
  exact ⟨hevents, hmutex, hfollows.output, hfollows.phase⟩

/-- **Pieces make no difference.** However the client's bytes arrive and however its reads split the
replies, the thread of a pipe does with them what the loop over the bytes does: it hands the same
requests to the agent, leaves the agent in the same state, sends the same bytes, and ends for the
same reason. A write of no bytes ends the client's input. -/
theorem pipe_serves_stream (crates : Crates) (requester : Option RequesterInfo) (pipe : Pipe)
    (mutex : AgentMutex) (hshort : ShortEvents (pipeStream crates requester pipe mutex).2) :
    (pipeThread crates requester pipe mutex).events =
        (pipeStream crates requester pipe mutex).2 ∧
      (pipeThread crates requester pipe mutex).mutex =
        (pipeStream crates requester pipe mutex).1.2 ∧
      (pipeThread crates requester pipe mutex).pipe.received =
        (pipeStream crates requester pipe mutex).1.1.rw.output ∧
      (pipeStream crates requester pipe mutex).1.1.phase.Matches
        (pipeThread crates requester pipe mutex).phase :=
  pipeThread_follows crates requester pipe mutex hshort

/-- A listing and a request of an unknown type, in pieces across the frames, to a client that takes
two bytes at a time. -/
def splitPipe : Pipe where
  pieces := [[0, 0], [0, 1, 11, 0], [0, 0, 1], [99]]
  readError := .brokenPipe
  received := []
  room := none
  grants := Stream'.const 1
  writeError := .brokenPipe

theorem shortEvents_splitPipe :
    ShortEvents (pipeStream Reference.crates none splitPipe
      { world := emptyWorld true .none, poisoned := false }).2 := by
  have hevents : (pipeStream Reference.crates none splitPipe
      { world := emptyWorld true .none, poisoned := false }).2 =
      [.request [] [11] ⟨"Pipe", none⟩, .reply [12, 0, 0, 0, 0], .request [] [99] ⟨"Pipe", none⟩,
        .reply [5]] := by decide +kernel
  intro resp hresp
  rw [hevents] at hresp
  simp only [List.mem_cons, reduceCtorEq, Event.reply.injEq, List.not_mem_nil, or_false,
    false_or] at hresp
  rcases hresp with rfl | rfl <;> norm_num

theorem pipe_serves_stream_split :
    (pipeThread Reference.crates none splitPipe
      { world := emptyWorld true .none, poisoned := false }).pipe.received =
        [0, 0, 0, 5, 12, 0, 0, 0, 0, 0, 0, 0, 1, 5] := by
  rw [(pipe_serves_stream Reference.crates none splitPipe _ shortEvents_splitPipe).2.2.1]
  decide +kernel

/-! ## Clients that are left -/

theorem allAnswered_nil (crates : Crates) (w : World) : AllAnswered crates w [] :=
  ⟨by simp [serveAll], rfl⟩

/-- The loop ends in a panic exactly if a request that it hands over is not answered. -/
theorem closed_panic_iff {crates : Crates} {info : RequestInfo} {input rest : Bytes}
    {bodies : List Bytes} (h : Frames input bodies rest) (w : World) (rw : ReadWrite)
    (hinput : rw.input = input) :
    ((connectionHandler crates).run
        ({ info, rw, phase := .reading }, { world := w, poisoned := false })).1.1.phase =
          .closed .panic ↔
      ¬ AllAnswered crates w ((handledBodies ((connectionHandler crates).run
        ({ info, rw, phase := .reading }, { world := w, poisoned := false })).2).map
          (Call.mk info)) := by
  induction h generalizing w rw with
  | @stop rest hstop =>
      obtain ⟨input, result, hresult, hrun⟩ :=
        run_of_stops crates info { world := w, poisoned := false } (hinput ▸ hstop)
      rw [hrun]
      refine iff_of_false ?_ (not_not_intro ?_)
      · simpa using hresult
      · exact allAnswered_nil crates w
  | @frame m input rest bodies hne hlt _ ih =>
      by_cases hans : Answerable w m
      · obtain ⟨reply, hreply⟩ := lockAndHandle_of_answerable crates ⟨info, m⟩ hans
        have hone : ∀ more, AllAnswered crates w
            ((handledBodies ((Agent.handleRequest crates m info w).events ++ more)).map
              (Call.mk info)) ↔
            AllAnswered crates (SshKeys.handled crates info w m).world
              ((handledBodies more).map (Call.mk info)) := by
          intro more
          rw [handledBodies_append, handledBodies_handleRequest, List.singleton_append,
            List.map_cons, allAnswered_cons]
          exact and_iff_right hans
        rw [run_of_frame hne hlt hinput hreply, hone]
        by_cases hfits : Fits ({ rw with input := input } : ReadWrite).room
            (writeString reply).length
        · rw [run_of_fits hfits]
          exact ih _ (({ rw with input := input } : ReadWrite).put (writeString reply)) rfl
        · rw [run_of_not_fits hfits]
          exact iff_of_false (by simp) (not_not_intro (allAnswered_nil crates _))
      -- this request ends the loop
      · have hlock := lockAndHandle_of_not_answerable crates ⟨info, m⟩ hans
        rw [run_of_panic crates hne hlt hinput hlock, handledBodies_handleRequest]
        refine iff_of_true rfl fun hall => hans ?_
        exact (allAnswered_cons.1 hall).1

theorem Phase.Matches.panic_iff {phase phase' : Phase} (h : phase.Matches phase') :
    phase' = .closed .panic ↔ phase = .closed .panic := by
  cases h with
  | same => exact Iff.rfl
  | writeError kind => simp

/-- On a poisoned mutex, the first frame ends the loop in a panic. -/
theorem closed_panic_of_poisoned (crates : Crates) (info : RequestInfo) (rw : ReadWrite)
    {mutex : AgentMutex} (h : mutex.poisoned = true) :
    ((connectionHandler crates).run ({ info, rw, phase := .reading }, mutex)).1.1.phase =
      .closed .panic ↔ ¬ Stops rw.input := by
  rcases stops_or_frame rw.input with hstop | ⟨m, tail, hne, hlt, hinput⟩
  · obtain ⟨input, result, hresult, hrun⟩ := run_of_stops crates info mutex hstop
    rw [hrun]
    refine iff_of_false ?_ (not_not_intro hstop)
    simpa using hresult
  · have hlock : lockAndHandle crates mutex ⟨info, m⟩ = (none, mutex, []) := if_pos h
    rw [run_of_panic crates hne hlt hinput hlock, hinput]
    exact iff_of_true rfl (not_stops_frame hne hlt)

/-- **Which clients are left connected.** The pipe of a client is disconnected and closed exactly if
every request that was handed to the agent for it was answered, or the mutex was poisoned before and
its bytes do not begin with a frame. Otherwise the thread is gone and the handle stays open. -/
theorem pipe_disconnected_iff (crates : Crates) (requester : Option RequesterInfo) (pipe : Pipe)
    (mutex : AgentMutex) (hshort : ShortEvents (pipeStream crates requester pipe mutex).2) :
    (pipeThread crates requester pipe mutex).disconnected = true ↔
      (mutex.poisoned = false ∧ AllAnswered crates mutex.world
        ((handledBodies (pipeThread crates requester pipe mutex).events).map
          (Call.mk { channel := "Pipe", requester }))) ∨
      (mutex.poisoned = true ∧ Stops pipe.view.input) := by
  obtain ⟨hevents, -, -, hphase⟩ := pipeThread_follows crates requester pipe mutex hshort
  have hleft : (pipeThread crates requester pipe mutex).disconnected = true ↔
      (pipeStream crates requester pipe mutex).1.1.phase ≠ .closed .panic :=
    decide_eq_true_iff.trans (not_congr hphase.panic_iff)
  rw [hleft, hevents, Ne]
  rcases mutex with ⟨w, poisoned⟩
  cases poisoned with
  | false =>
      obtain ⟨bodies, rest, hframes⟩ := exists_frames pipe.view.input
      rw [pipeStream, closed_panic_iff hframes w pipe.view rfl, not_not]
      simp
  | true =>
      rw [pipeStream, closed_panic_of_poisoned crates _ pipe.view rfl, not_not]
      simp

/-- The client with the split requests is disconnected in the end. -/
theorem pipe_disconnected_iff_split :
    AllAnswered Reference.crates (emptyWorld true .none)
      ((handledBodies (pipeThread Reference.crates none splitPipe
        { world := emptyWorld true .none, poisoned := false }).events).map
          (Call.mk { channel := "Pipe", requester := none })) := by
  have h := (pipe_disconnected_iff Reference.crates none splitPipe
    { world := emptyWorld true .none, poisoned := false } shortEvents_splitPipe).1
      (by decide +kernel)
  rcases h with ⟨-, hall⟩ | ⟨hpoisoned, -⟩
  · exact hall
  · cases hpoisoned

/-! ## File mappings -/

/-- `BufReadWrite`: a cursor over a mapping, and the replies. -/
structure BufReadWrite where
  req : Bytes
  resp : Bytes

namespace BufReadWrite

/-- `Cursor` and `Vec` move everything at once. -/
def readWrite : ReadWriter BufReadWrite where
  read n buf := (.ok (buf.req.take n), { buf with req := buf.req.drop n })
  write data buf := (.ok data.length, { buf with resp := buf.resp ++ data })

/-- The buffers as a stream: all of the request can be read, and all replies can be written. -/
def view (buf : BufReadWrite) : ReadWrite :=
  { input := buf.req, atEnd := .unexpectedEof, output := buf.resp, room := none }

theorem carries_readWrite (limit : Nat) : readWrite.Carries limit view where
  reads :=
    { some := by
        intro n buf buf' b data hn h
        simp only [readWrite, Prod.mk.injEq, Except.ok.injEq] at h
        obtain ⟨htake, rfl⟩ := h
        have hle := List.length_take_le n buf.req
        rw [htake, List.length_cons] at hle
        refine ⟨by omega, ?_, rfl⟩
        rw [← htake]
        exact (List.take_append_drop n buf.req).symm
      none := by
        intro n buf buf' hn h
        simp only [readWrite, Prod.mk.injEq, Except.ok.injEq] at h
        rcases List.take_eq_nil_iff.1 h.1 with hzero | hnil
        · omega
        · exact ⟨hnil, rfl⟩
      error := by
        intro n buf buf' e hn h
        simp [readWrite] at h
      frame := fun n buf => rfl }
  writes :=
    { some := by
        intro k data buf buf' hlen h
        simp only [readWrite, Prod.mk.injEq, Except.ok.injEq] at h
        obtain ⟨hall, rfl⟩ := h
        refine ⟨hall.ge, by simp [view], ?_, rfl⟩
        rw [← hall, List.take_length]
        rfl
      none := by
        intro data buf buf' hne hlen h
        simp only [readWrite, Prod.mk.injEq, Except.ok.injEq] at h
        exact absurd (List.eq_nil_of_length_eq_zero h.1) hne
      error := by
        intro data buf buf' e hne hlen h
        simp [readWrite] at h
      frame := fun data buf => rfl }

end BufReadWrite

theorem exists_reply_bound (events : List Event) :
    ∃ limit, 4 < limit ∧ ∀ resp, .reply resp ∈ events → resp.length < limit := by
  induction events with
  | nil => exact ⟨5, by norm_num, by simp⟩
  | cons event events ih =>
      obtain ⟨limit, hword, hbound⟩ := ih
      cases event with
      | reply resp =>
          refine ⟨limit + resp.length + 1, by omega, ?_⟩
          intro resp' hmem
          rcases List.mem_cons.1 hmem with heq | hmem
          · rw [Event.reply.inj heq]
            omega
          · have hlt := hbound resp' hmem
            omega
      | request keys buf info => exact ⟨limit, hword, by simpa using hbound⟩
      | confirm keyPair info answer => exact ⟨limit, hword, by simpa using hbound⟩
      | sign key msg flags sig => exact ⟨limit, hword, by simpa using hbound⟩
      | save ok => exact ⟨limit, hword, by simpa using hbound⟩

/-- The loop over the cursor of a mapping is the loop that `wndProc` runs over its bytes. -/
theorem connectionHandlerOn_bufReadWrite (crates : Crates) (info : RequestInfo) (mapping : Bytes)
    (mutex : AgentMutex) :
    Follows BufReadWrite.view ((connectionHandler crates).run
        ({ info, rw := bufReadWrite mapping, phase := .reading }, mutex)).1.1
      ((connectionHandlerOn (BufReadWrite.carries_readWrite 5) crates).run
        ({ info, rw := ⟨mapping, []⟩, phase := .reading }, mutex)).1.1 ∧
    ((connectionHandlerOn (BufReadWrite.carries_readWrite 5) crates).run
        ({ info, rw := ⟨mapping, []⟩, phase := .reading }, mutex)).1.2 =
      ((connectionHandler crates).run
        ({ info, rw := bufReadWrite mapping, phase := .reading }, mutex)).1.2 ∧
    ((connectionHandlerOn (BufReadWrite.carries_readWrite 5) crates).run
        ({ info, rw := ⟨mapping, []⟩, phase := .reading }, mutex)).2 =
      ((connectionHandler crates).run
        ({ info, rw := bufReadWrite mapping, phase := .reading }, mutex)).2 := by
  obtain ⟨limit, hword, hbound⟩ := exists_reply_bound ((connectionHandler crates).run
    ({ info, rw := bufReadWrite mapping, phase := .reading }, mutex)).2
  exact connectionHandlerOn_follows (BufReadWrite.carries_readWrite limit) hword crates info
    ⟨mapping, []⟩ mutex hbound

end SshKeys
