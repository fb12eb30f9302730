import SshKeys.Wire

/-!
# Transports and frames

The bytes a client sends and the bytes it receives, after `ReadWrite` in `utils.rs`. A transport may
end in the middle of a frame and may stop taking bytes at any point; what can be written of `data`
is `cut room data`.

`Frames` cuts an input into its leading complete frames and the rest, without the loop that reads
them. Every input is cut in exactly one way (`exists_frames`, `frames_unique`).
-/

set_option autoImplicit false

namespace SshKeys

open Lib

/-- Both ends of a transport. A read that needs more bytes than `input` has fails with `atEnd`, and
once `room` bytes are written the next write fails. -/
structure ReadWrite where
  input : Bytes
  atEnd : ErrorKind
  output : Bytes
  room : Option Nat
  deriving DecidableEq

/-- `n` bytes can be written. -/
def Fits (room : Option Nat) (n : Nat) : Prop := ∀ r ∈ room, n ≤ r

instance (room : Option Nat) (n : Nat) : Decidable (Fits room n) :=
  match room with
  | none => isTrue (by simp [Fits])
  | some r => decidable_of_iff (n ≤ r) (by simp [Fits])

/-- The part of `data` that is written. -/
def cut : Option Nat → Bytes → Bytes
  | none, data => data
  | some r, data => data.take r

namespace ReadWrite

/-- The transport after an attempt to write `data`. -/
def put (rw : ReadWrite) (data : Bytes) : ReadWrite :=
  { rw with
    output := rw.output ++ cut rw.room data
    room := rw.room.map fun r => r - data.length }

/-- `write_all` -/
def writeAll (rw : ReadWrite) (data : Bytes) : Outcome Error Unit × ReadWrite :=
  (if Fits rw.room data.length then .ok () else .err (.io .other), rw.put data)

/-- `write_string` is two writes. -/
def writeString (rw : ReadWrite) (data : Bytes) : Outcome Error Unit × ReadWrite :=
  match rw.writeAll (writeU32 (data.length % 2 ^ 32)) with
  | (.ok (), rw') => rw'.writeAll data
  | (outcome, rw') => (outcome, rw')

end ReadWrite

theorem cut_append (room : Option Nat) (a b : Bytes) :
    cut room (a ++ b) = cut room a ++ cut (room.map fun r => r - a.length) b := by
  cases room with
  | none => rfl
  | some r => exact List.take_append

theorem fits_zero (room : Option Nat) : Fits room 0 := fun r _ => Nat.zero_le r

theorem fits_add_iff {room : Option Nat} {a b : Nat} :
    Fits room (a + b) ↔ Fits room a ∧ Fits (room.map fun r => r - a) b := by
  cases room with
  | none => simp [Fits]
  | some r =>
      simp only [Fits, Option.mem_def, Option.some.injEq, forall_eq', Option.map_some]
      omega

theorem cut_of_not_fits {room : Option Nat} {a : Nat} (h : ¬ Fits room a) (b : Bytes) :
    cut (room.map fun r => r - a) b = [] := by
  cases room with
  | none => exact absurd (by simp [Fits]) h
  | some r =>
      simp only [Fits, Option.mem_def, Option.some.injEq, forall_eq', Nat.not_le] at h
      rw [Option.map_some, cut, Nat.sub_eq_zero_of_le (Nat.le_of_lt h), List.take_zero]

theorem put_append (rw : ReadWrite) (a b : Bytes) : rw.put (a ++ b) = (rw.put a).put b := by
  have hroom : (rw.room.map fun r => r - (a ++ b).length) =
      (rw.room.map fun r => r - a.length).map fun r => r - b.length := by
    rw [Option.map_map, List.length_append]
    congr 1
    funext r
    exact (Nat.sub_sub r a.length b.length).symm
  simp only [ReadWrite.put, hroom, cut_append, List.append_assoc]

theorem put_of_not_fits {rw : ReadWrite} {a : Bytes} (h : ¬ Fits rw.room a.length) (b : Bytes) :
    (rw.put a).put b = rw.put a := by
  have hroom : ((rw.room.map fun r => r - a.length).map fun r => r - b.length) =
      rw.room.map fun r => r - a.length := by
    cases hr : rw.room with
    | none => rfl
    | some r =>
        simp only [hr, Fits, Option.mem_def, Option.some.injEq, forall_eq', Nat.not_le] at h
        simp only [Option.map_some, Option.some.injEq]
        omega
  simp only [ReadWrite.put, hroom, cut_of_not_fits h, List.append_nil]

/-- Two writes leave what one write of both would leave. -/
theorem ReadWrite.writeString_eq (rw : ReadWrite) (data : Bytes) :
    rw.writeString data = rw.writeAll (SshKeys.writeString data) := by
  have hlen : (SshKeys.writeString data).length =
      (writeU32 (data.length % 2 ^ 32)).length + data.length := by
    rw [SshKeys.writeString, List.length_append]
  have hput : rw.put (SshKeys.writeString data) =
      (rw.put (writeU32 (data.length % 2 ^ 32))).put data := put_append rw _ data
  -- if the length does not fit, nothing of the data is tried or would be written
  by_cases h : Fits rw.room (writeU32 (data.length % 2 ^ 32)).length
  · simp only [writeString, writeAll, hput, hlen, fits_add_iff, h, if_true, true_and]
    rfl
  · simp only [writeString, writeAll, hput, hlen, fits_add_iff, h, if_false, false_and]
    rw [put_of_not_fits h]

/-! ## Frames -/

/-- A length and as many bytes. -/
def frame (m : Bytes) : Bytes := writeU32 m.length ++ m

theorem length_frame (m : Bytes) : (frame m).length = 4 + m.length := by
  rw [frame, List.length_append, length_writeU32]

theorem writeString_eq_frame {m : Bytes} (h : m.length < 2 ^ 32) : writeString m = frame m := by
  rw [writeString, frame, Nat.mod_eq_of_lt h]

/-- The input does not begin with a complete frame of at least one byte. -/
inductive Stops : Bytes → Prop where
  | shortLength {input : Bytes} : input.length < 4 → Stops input
  | zeroLength (input : Bytes) : Stops (writeU32 0 ++ input)
  | shortBody {len : Nat} {part : Bytes} :
      len < 2 ^ 32 → part.length < len → Stops (writeU32 len ++ part)

/-- `bodies` are the bodies of the leading complete frames of the input, `rest` is what follows. -/
inductive Frames : Bytes → List Bytes → Bytes → Prop where
  | stop {rest : Bytes} : Stops rest → Frames rest [] rest
  | frame {m input rest : Bytes} {bodies : List Bytes} : m ≠ [] → m.length < 2 ^ 32 →
      Frames input bodies rest → Frames (frame m ++ input) (m :: bodies) rest

theorem stops_or_frame (input : Bytes) :
    Stops input ∨ ∃ m tail, m ≠ [] ∧ m.length < 2 ^ 32 ∧ input = frame m ++ tail := by
  rcases input with _ | ⟨b₀, _ | ⟨b₁, _ | ⟨b₂, _ | ⟨b₃, tail⟩⟩⟩⟩
  case cons.cons.cons.cons =>
      have hlt := BigEndian.ofWord_lt b₀ b₁ b₂ b₃
      have hword : b₀ :: b₁ :: b₂ :: b₃ :: tail =
          writeU32 (BigEndian.ofWord b₀ b₁ b₂ b₃) ++ tail := by
        rw [writeU32, BigEndian.toWord_ofWord]
        rfl
      rw [hword]
      generalize BigEndian.ofWord b₀ b₁ b₂ b₃ = len at hlt
      -- the length is zero, longer than what follows, or the length of a frame
      rcases Nat.eq_zero_or_pos len with rfl | hpos
      · exact Or.inl (.zeroLength tail)
      by_cases hbody : tail.length < len
      · exact Or.inl (.shortBody hlt hbody)
      · have htake : (tail.take len).length = len := by
          rw [List.length_take]
          omega
        refine Or.inr ⟨tail.take len, tail.drop len, ?_, ?_, ?_⟩
        · exact List.ne_nil_of_length_pos (by omega)
        · omega
        · rw [frame, htake, List.append_assoc, List.take_append_drop]
  all_goals exact Or.inl (.shortLength (by simp))

theorem readString_frame {m : Bytes} (h : m.length < 2 ^ 32) (tail : Bytes) :
    readString (frame m ++ tail) = .ok (m, tail) := by
  rw [readString_eq_ok_iff, writeString_eq_frame h]
  exact ⟨h, rfl⟩

theorem frame_append_inj {m m' tail tail' : Bytes} (h : m.length < 2 ^ 32)
    (h' : m'.length < 2 ^ 32) (heq : frame m ++ tail = frame m' ++ tail') :
    m = m' ∧ tail = tail' := by
  have hread := readString_frame h tail
  rw [heq, readString_frame h' tail', Outcome.ok.injEq, Prod.mk.injEq] at hread
  exact ⟨hread.1.symm, hread.2.symm⟩

/-- What stops a connection has no complete frame at its front. -/
theorem not_stops_frame {m tail : Bytes} (hne : m ≠ []) (hlt : m.length < 2 ^ 32) :
    ¬ Stops (frame m ++ tail) := by
  have hlen : readU32 (frame m ++ tail) = .ok (m.length, m ++ tail) := by
    rw [readU32_eq_ok_iff, frame, List.append_assoc]
    exact ⟨hlt, rfl⟩
  have hpos : 0 < m.length := List.length_pos_of_ne_nil hne
  intro h
  generalize frame m ++ tail = input at h hlen
  -- the number that a frame begins with fits none of the reasons to stop
  cases h with
  | shortLength hshort =>
      have hinput := length_of_readU32 hlen
      omega
  | zeroLength rest =>
      rw [readU32_eq_ok_iff.2 ⟨by norm_num, rfl⟩] at hlen
      simp only [Outcome.ok.injEq, Prod.mk.injEq] at hlen
      omega
  | @shortBody len part hlt' hshort =>
      rw [readU32_eq_ok_iff.2 ⟨hlt', rfl⟩] at hlen
      simp only [Outcome.ok.injEq, Prod.mk.injEq] at hlen
      obtain ⟨rfl, rfl⟩ := hlen
      rw [List.length_append] at hshort
      omega

theorem frames_unique {input rest : Bytes} {bodies : List Bytes} (h : Frames input bodies rest) :
    ∀ {bodies' rest'}, Frames input bodies' rest' → bodies' = bodies ∧ rest' = rest := by
  induction h with
  | stop hstop =>
      intro bodies' rest' h'
      cases h' with
      | stop => exact ⟨rfl, rfl⟩
      | frame hne hlt _ => exact absurd hstop (not_stops_frame hne hlt)
  | @frame m input rest bodies hne hlt _ ih =>
      intro bodies' rest' h'
      generalize hinput : frame m ++ input = whole at h'
      cases h' with
      | stop hstop => exact absurd (hinput ▸ hstop) (not_stops_frame hne hlt)
      | @frame m' input' rest' bodies' hne' hlt' h' =>
          -- one string is read from the front, so the first bodies and what follows agree
          obtain ⟨rfl, rfl⟩ := frame_append_inj hlt hlt' hinput
          obtain ⟨rfl, rfl⟩ := ih h'
          exact ⟨rfl, rfl⟩

theorem exists_frames (input : Bytes) : ∃ bodies rest, Frames input bodies rest := by
  induction hn : input.length using Nat.strongRecOn generalizing input with
  | _ n ih =>
      -- by the length of the input, which every frame shortens
      rcases stops_or_frame input with hstop | ⟨m, tail, hne, hlt, rfl⟩
      · exact ⟨[], input, .stop hstop⟩
      · have hlen : tail.length < n := by
          rw [← hn, List.length_append, length_frame]
          omega
        obtain ⟨bodies, rest, h⟩ := ih tail.length hlen tail rfl
        exact ⟨m :: bodies, rest, .frame hne hlt h⟩

end SshKeys
