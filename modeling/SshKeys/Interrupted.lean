import SshKeys.AuthorizedKeys
import SshKeys.Transport

/-!
# Interrupted updates

The end of `copy_id` on a connection that can break, after `copy_id.rs`: the reading, the seek and
either of the two writes may fail, and of a write any part may have got through. `copy_id` returns
the error and leaves the file as it is, so what the next `copy_id` finds may end within a line.

`interrupted_updates_extend` says what any sequence of such updates leaves,
`retried_update_authorises_iff` when an update that is repeated until it succeeds does its work, and
`next_update_succeeds_iff` when it can succeed at all.
-/

set_option autoImplicit false

namespace SshKeys

open Lib

/-! ## A connection that breaks -/

/-- What fails on a connection. -/
structure RemoteFault where
  read : Bool
  seek : Bool
  /-- How many bytes can be written, if not all. -/
  room : Option Nat
  deriving DecidableEq

/-- The open file, and what will fail. -/
structure Remote where
  file : RemoteFile
  fault : RemoteFault

/-- A step of an update. It records nothing. -/
abbrev RemoteAct := Effect Remote Empty Error

namespace Remote

/-- `read_to_string`, which can fail before it has read anything. -/
def readToString : RemoteAct Bytes := fun remote =>
  if remote.fault.read then ⟨.err (.io .other), remote, []⟩
  else
    match remote.file.readToString with
    | .ok (str, file) => ⟨.ok str, { remote with file }, []⟩
    | .err e => ⟨.err e, remote, []⟩
    | .panic => ⟨.panic, remote, []⟩

/-- `seek(SeekFrom::End(0))` -/
def seekEnd : RemoteAct Unit := fun remote =>
  if remote.fault.seek then ⟨.err (.io .other), remote, []⟩
  else ⟨.ok (), { remote with file := remote.file.seekEnd }, []⟩

/-- `write_all`, of which a part gets through where the rest does not. -/
def writeAll (data : Bytes) : RemoteAct Unit := fun remote =>
  let room := remote.fault.room
  ⟨if Fits room data.length then .ok () else .err (.io .other),
    { file := remote.file.writeAll (cut room data)
      fault := { remote.fault with room := room.map fun r => r - data.length } }, []⟩

end Remote

/-- The reading of `copy_id`, which is left out with the erase option. -/
def readOld : RemoteAct Bytes := do
  let str ← Remote.readToString
  Remote.seekEnd
  pure str

/-- The writes of `copy_id`, for the text that was read. -/
def writeKey (key : KeyPair) (str : Bytes) : RemoteAct Copied := do
  let blob ← Effect.lift key.publicKey.encode
  let publicKeyB64 := String.ofList (Base64.encode blob)
  if ¬ utf8 publicKeyB64 <:+: str then do
    if str ≠ [] ∧ str.getLast? ≠ some newline then Remote.writeAll [newline] else pure ()
    Remote.writeAll (keyLine key publicKeyB64)
    pure .added
  else
    pure .exists

/-- The end of `copy_id`. -/
def updateRemote (erase : Bool) (key : KeyPair) : RemoteAct Copied := do
  let str ← if erase then pure [] else readOld
  writeKey key str

/-- `updateRemote` on a file with the content `old`: how it ends, and the content after it. -/
def attempt (erase : Bool) (key : KeyPair) (old : Option Bytes) (fault : RemoteFault) :
    Outcome Error Copied × Bytes :=
  let ran := updateRemote erase key { file := .openMode old, fault }
  (ran.outcome, ran.world.file.content)

/-! ## One update -/

/-- How an update without the erase option can end, and what it can leave. -/
inductive Attempted (key : KeyPair) (old : Bytes) : Outcome Error Copied → Bytes → Prop where
  /-- It fails before it writes. -/
  | refused {outcome : Outcome Error Copied} (h : ∀ copied, outcome ≠ .ok copied) :
      Attempted key old outcome old
  | found {blob : Bytes} (hblob : key.publicKey.encode = .ok blob)
      (hin : publicKeyB64 blob <:+: old) : Attempted key old (.ok .exists) old
  | added {blob : Bytes} (hblob : key.publicKey.encode = .ok blob)
      (hnew : ¬ publicKeyB64 blob <:+: old) :
      Attempted key old (.ok .added)
        (Lines.terminate newline old ++ keyLine key (String.ofList (Base64.encode blob)))
  /-- It fails in one of the writes. -/
  | broken {blob content : Bytes} {e : Error} (hblob : key.publicKey.encode = .ok blob)
      (hnew : ¬ publicKeyB64 blob <:+: old) (hold : old <+: content)
      (hcontent : content <+:
        Lines.terminate newline old ++ keyLine key (String.ofList (Base64.encode blob))) :
      Attempted key old (.err e) content

/-- A write at the end of the file. -/
theorem Remote.writeAll_of_end {remote : Remote}
    (h : remote.file.pos = remote.file.content.length) (data : Bytes) :
    ∃ remote', Remote.writeAll data remote =
        ⟨if Fits remote.fault.room data.length then .ok () else .err (.io .other), remote', []⟩ ∧
      remote'.file.content = remote.file.content ++ cut remote.fault.room data ∧
      remote'.file.pos = remote'.file.content.length := by
  obtain ⟨hcontent, hpos⟩ := RemoteFile.writeAll_of_end h (cut remote.fault.room data)
  exact ⟨_, rfl, hcontent, hpos⟩

theorem cut_isPrefix (room : Option Nat) (data : Bytes) : cut room data <+: data := by
  cases room with
  | none => exact List.prefix_refl _
  | some r => exact List.take_prefix r data

theorem cut_of_fits {room : Option Nat} {data : Bytes} (h : Fits room data.length) :
    cut room data = data := by
  cases room with
  | none => rfl
  | some r => exact List.take_of_length_le (h r rfl)

/-- The write of the line, at the end of the file. -/
theorem written_of_end {remote : Remote} (h : remote.file.pos = remote.file.content.length)
    (line : Bytes) :
    ∃ remote', ((Remote.writeAll line >>= fun _ => pure Copied.added : RemoteAct Copied) remote =
          ⟨.ok .added, remote', []⟩ ∧ remote'.file.content = remote.file.content ++ line) ∨
      ∃ e, (Remote.writeAll line >>= fun _ => pure Copied.added : RemoteAct Copied) remote =
          ⟨.err e, remote', []⟩ ∧ remote.file.content <+: remote'.file.content ∧
        remote'.file.content <+: remote.file.content ++ line := by
  obtain ⟨remote', hwrite, hcontent, -⟩ := Remote.writeAll_of_end h line
  refine ⟨remote', ?_⟩
  by_cases hfits : Fits remote.fault.room line.length
  · rw [if_pos hfits] at hwrite
    rw [cut_of_fits hfits] at hcontent
    refine Or.inl ⟨?_, hcontent⟩
    rw [Effect.bind_of_ok hwrite]
    rfl
  · rw [if_neg hfits] at hwrite
    refine Or.inr ⟨_, Effect.bind_of_err hwrite, ?_⟩
    rw [hcontent]
    exact ⟨List.prefix_append _ _, List.prefix_append_right_inj _ |>.2 (cut_isPrefix _ _)⟩

/-- Behind the reading and the seek. -/
theorem attempted_writeKey (key : KeyPair) {remote : Remote}
    (h : remote.file.pos = remote.file.content.length) :
    Attempted key remote.file.content (writeKey key remote.file.content remote).outcome
      (writeKey key remote.file.content remote).world.file.content := by
  rw [writeKey, Effect.lift_bind_apply]
  cases hblob : key.publicKey.encode with
  | err e => exact .refused (by simp)
  | panic => exact .refused (by simp)
  | ok blob =>
      by_cases hin : publicKeyB64 blob <:+: remote.file.content
      · have hin' : ¬ ¬ utf8 (String.ofList (Base64.encode blob)) <:+: remote.file.content :=
          not_not_intro hin
        simp only [if_neg hin']
        exact .found hblob hin
      · have hin' : ¬ utf8 (String.ofList (Base64.encode blob)) <:+: remote.file.content := hin
        simp only [if_pos hin']
        by_cases hend : remote.file.content ≠ [] ∧ remote.file.content.getLast? ≠ some newline
        -- the missing line break, and then the line
        · simp only [if_pos hend]
          have hterminate : Lines.terminate newline remote.file.content =
              remote.file.content ++ [newline] := if_pos hend
          obtain ⟨remote', hbreak, hcontent, hpos⟩ := Remote.writeAll_of_end h [newline]
          by_cases hfits : Fits remote.fault.room [newline].length
          · rw [if_pos hfits] at hbreak
            rw [cut_of_fits hfits, ← hterminate] at hcontent
            rw [Effect.bind_of_ok hbreak]
            obtain ⟨remote'', ⟨hline, hafter⟩ | ⟨e, hline, hold, hafter⟩⟩ :=
              written_of_end hpos (keyLine key (String.ofList (Base64.encode blob)))
            · rw [hline]
              show Attempted key _ (.ok .added) remote''.file.content
              rw [hafter, hcontent]
              exact .added hblob hin
            · rw [hline]
              rw [hcontent] at hold hafter
              exact .broken hblob hin ((Lines.prefix_terminate _).trans hold) hafter
          · rw [if_neg hfits] at hbreak
            rw [Effect.bind_of_err hbreak]
            apply Attempted.broken hblob hin
            · rw [hcontent]
              exact List.prefix_append _ _
            · rw [hcontent, hterminate, List.append_assoc]
              exact (List.prefix_append_right_inj _).2
                ((cut_isPrefix _ _).trans (List.prefix_append _ _))
        · simp only [if_neg hend]
          have hterminate : Lines.terminate newline remote.file.content = remote.file.content :=
            if_neg hend
          obtain ⟨remote', ⟨hline, hafter⟩ | ⟨e, hline, hold, hafter⟩⟩ :=
            written_of_end h (keyLine key (String.ofList (Base64.encode blob)))
          · rw [hline]
            show Attempted key _ (.ok .added) remote'.file.content
            rw [hafter]
            have hadded : Attempted key remote.file.content (.ok .added) _ := .added hblob hin
            rwa [hterminate] at hadded
          · rw [hline]
            rw [← hterminate] at hafter
            exact .broken hblob hin hold hafter

/-- The reading either fails, or it has the text of the file and stands at its end. -/
theorem readOld_cases (old : Bytes) (fault : RemoteFault) :
    ∃ remote, remote.file.content = old ∧
      ((∃ e, readOld { file := .openMode (some old), fault } = ⟨.err e, remote, []⟩) ∨
        readOld { file := .openMode (some old), fault } = ⟨.ok old, remote, []⟩ ∧
          remote.file.pos = remote.file.content.length) := by
  let remote : Remote := { file := .openMode (some old), fault }
  let atEnd : Remote := { file := (RemoteFile.openMode (some old)).seekEnd, fault }
  by_cases hread : fault.read = true
  · have hfails : Remote.readToString remote = ⟨.err (.io .other), remote, []⟩ := if_pos hread
    exact ⟨remote, rfl, Or.inl ⟨_, Effect.bind_of_err hfails⟩⟩
  · cases htext : fromUtf8 old with
    | none =>
        have hfails : Remote.readToString remote = ⟨.err .fromUtf8, remote, []⟩ := by
          simp [Remote.readToString, remote, hread, RemoteFile.readToString, RemoteFile.openMode,
            htext]
        exact ⟨remote, rfl, Or.inl ⟨_, Effect.bind_of_err hfails⟩⟩
    | some text =>
        have hreads : Remote.readToString remote = ⟨.ok old, atEnd, []⟩ := by
          simp [Remote.readToString, remote, atEnd, hread, RemoteFile.readToString,
            RemoteFile.openMode, htext]
        by_cases hseek : fault.seek = true
        · have hfails : Remote.seekEnd atEnd = ⟨.err (.io .other), atEnd, []⟩ := if_pos hseek
          refine ⟨atEnd, rfl, Or.inl ⟨.io .other, ?_⟩⟩
          rw [readOld, Effect.bind_of_ok hreads, Effect.bind_of_err hfails]
          rfl
        · have hseeks : Remote.seekEnd atEnd = ⟨.ok (), atEnd, []⟩ := if_neg hseek
          refine ⟨atEnd, rfl, Or.inr ⟨?_, rfl⟩⟩
          rw [readOld, Effect.bind_of_ok hreads, Effect.bind_of_ok hseeks]
          rfl

/-- **One update** without the erase option fails before it writes, finds the key, or adds a part of
the line, which is all of it if it succeeds. -/
theorem attempted (key : KeyPair) (old : Bytes) (fault : RemoteFault) :
    Attempted key old (attempt false key (some old) fault).1
      (attempt false key (some old) fault).2 := by
  obtain ⟨remote, rfl, ⟨e, hread⟩ | ⟨hread, hend⟩⟩ := readOld_cases old fault
  · have hupdate := Effect.bind_of_err (f := writeKey key) hread
    rw [attempt, updateRemote]
    simp only [Bool.false_eq_true, if_false, hupdate]
    exact .refused (by simp)
  · have hupdate := Effect.bind_of_ok (f := writeKey key) hread
    rw [attempt, updateRemote]
    simp only [Bool.false_eq_true, if_false, hupdate]
    exact attempted_writeKey key hend

/-! ## What is left -/

/-- A part of a new line behind the file is nothing, or begins on a line of its own. -/
theorem eq_or_terminated {old content line : Bytes} (hold : old <+: content)
    (hcontent : content <+: Lines.terminate newline old ++ line) :
    content = old ∨ ∃ part, part <+: line ∧ content = Lines.terminate newline old ++ part := by
  rcases List.prefix_or_prefix_of_prefix hcontent (List.prefix_append _ line) with hshort | hlong
  · rw [Lines.terminate] at hshort ⊢
    split at hshort
    · next hend =>
        rw [if_pos hend]
        -- only the line break can be missing
        rcases List.prefix_concat_iff.1 hshort with rfl | hpre
        · exact Or.inr ⟨[], List.nil_prefix, (List.append_nil _).symm⟩
        · exact Or.inl (List.IsPrefix.eq_of_length_le hpre hold.length_le)
    · exact Or.inl (List.IsPrefix.eq_of_length_le hshort hold.length_le)
  · obtain ⟨part, rfl⟩ := hlong
    exact Or.inr ⟨part, (List.prefix_append_right_inj _).1 hcontent, rfl⟩

theorem extends_of_attempted {key : KeyPair} {old content : Bytes}
    {outcome : Outcome Error Copied} (h : Attempted key old outcome content) :
    Extends old content := by
  cases h with
  | refused _ => exact Extends.refl _
  | found _ _ => exact Extends.refl _
  | added _ _ => exact extends_terminate_append _ _
  | broken _ _ hold hcontent =>
      rcases eq_or_terminated hold hcontent with rfl | ⟨part, -, rfl⟩
      · exact Extends.refl _
      · exact extends_terminate_append _ _

theorem authorises_of_extends {old content blob : Bytes} (h : Extends old content)
    (hold : Authorises old blob) : Authorises content blob := by
  obtain ⟨line, hline, hactive, hfield⟩ := hold
  exact ⟨line, h.lines.subset hline, hactive, hfield⟩

/-- The text of a key is longer than the type in front of it. -/
theorem length_publicKeyB64 {k : PublicKey} {blob : Bytes} (h : k.encode = .ok blob) :
    (utf8 "ssh-rsa").length < (publicKeyB64 blob).length := by
  have hascii : ∀ c ∈ Base64.encode blob, c.toNat < 128 := by
    intro c hc
    have := Base64.encode_printable hc
    omega
  have hlen : (publicKeyB64 blob).length = (Base64.encode blob).length := by
    rw [publicKeyB64, utf8_ofList hascii, List.length_map]
  have hblob : 11 ≤ blob.length := by
    rcases k with ⟨e, n⟩
    obtain ⟨-, rfl⟩ := PublicKey.encode_eq_ok_iff.1 h
    simp only [publicBlob, List.length_append, length_writeString]
    have htype : (utf8 "ssh-rsa").length = 7 := by decide
    omega
  have htype : (utf8 "ssh-rsa").length = 7 := by decide
  have := Base64.length_le_encode blob
  omega

theorem notMem_publicKeyB64 {b : UInt8} (hb : b.toNat ≤ 32) (blob : Bytes) :
    b ∉ publicKeyB64 blob := by
  intro hmem
  exact absurd (publicKeyB64_printable hmem).1 (Nat.not_lt.2 hb)

/-- A part of the line of a key that has the text of the key in it has all that the server looks
for. -/
theorem part_of_keyLine {key : KeyPair} {blob part : Bytes}
    (hblob : key.publicKey.encode = .ok blob)
    (hpart : part <+: keyLine key (String.ofList (Base64.encode blob)))
    (hin : publicKeyB64 blob <:+: part) :
    ∃ rest, part = utf8 "ssh-rsa" ++ space :: (publicKeyB64 blob ++ rest) ∧
      (rest = [] ∨ ∃ rest', rest = space :: rest') := by
  have htype : utf8 key.publicKey.keyType = utf8 "ssh-rsa" := by
    rcases key.publicKey with ⟨e, n⟩
    rfl
  have hspace := notMem_publicKeyB64 (b := space) (by decide) blob
  have hlong : ¬ publicKeyB64 blob <:+: utf8 "ssh-rsa" := by
    intro hshort
    exact absurd hshort.length_le (Nat.not_le.2 (length_publicKeyB64 hblob))
  have hline : keyLine key (String.ofList (Base64.encode blob)) =
      (utf8 "ssh-rsa" ++ [space]) ++ (publicKeyB64 blob ++ space :: utf8 (key.name ++ "\n")) := by
    rw [keyLine_eq, htype, List.append_assoc, List.singleton_append]
  rw [hline] at hpart
  rcases List.prefix_or_prefix_of_prefix hpart (List.prefix_append _ _) with hshort | hall
  -- the part ends in front of the text of the key
  · have hin' := hin.trans hshort.isInfix
    rw [Lines.infix_append_cons_iff hspace] at hin'
    rcases hin' with hin' | hin'
    · exact absurd hin' hlong
    · rw [List.infix_nil.1 hin'] at hlong
      exact absurd List.nil_infix hlong
  · obtain ⟨behind, rfl⟩ := hall
    rw [List.prefix_append_right_inj] at hpart
    rw [List.append_assoc, List.singleton_append, Lines.infix_append_cons_iff hspace] at hin
    have hbehind : publicKeyB64 blob <:+: behind := hin.resolve_left hlong
    obtain ⟨rest, rfl⟩ : publicKeyB64 blob <+: behind := by
      rcases List.prefix_or_prefix_of_prefix hpart (List.prefix_append _ _) with hshort | hall
      · rw [hshort.eq_of_length_le hbehind.length_le]
      · exact hall
    rw [List.prefix_append_right_inj] at hpart
    refine ⟨rest, by rw [List.append_assoc, List.singleton_append], ?_⟩
    cases rest with
    | nil => exact Or.inl rfl
    | cons b rest =>
        rw [List.cons_prefix_cons] at hpart
        exact Or.inr ⟨rest, by rw [hpart.1]⟩

/-- Such a part on a line of its own is read by the server, even if nothing follows it. -/
theorem authorises_append_part {start blob rest : Bytes} (hstart : Lines.Terminated newline start)
    (hrest : rest = [] ∨ ∃ rest', rest = space :: rest') :
    Authorises (start ++ (utf8 "ssh-rsa" ++ space :: (publicKeyB64 blob ++ rest))) blob := by
  have hnewline := notMem_publicKeyB64 (b := newline) (by decide) blob
  have hspace := notMem_publicKeyB64 (b := space) (by decide) blob
  rw [Authorises, Lines.lines_append hstart]
  rcases hrest with rfl | ⟨rest', rfl⟩
  · have hfirst : newline ∉ utf8 "ssh-rsa" ++ space :: publicKeyB64 blob := by
      simp only [List.mem_append, List.mem_cons, not_or]
      exact ⟨by decide, by decide, hnewline⟩
    refine ⟨utf8 "ssh-rsa" ++ space :: publicKeyB64 blob, List.mem_append_right _ ?_,
      ⟨115, _, rfl, by decide⟩, ?_⟩
    · rw [List.append_nil, Lines.lines_of_notMem (by simp) hfirst]
      exact List.mem_cons_self
    · rw [List.splitOn_append_cons_self_of_not_mem (by decide), List.splitOn_eq_singleton hspace]
      exact List.mem_cons_of_mem _ List.mem_cons_self
  · have hfirst : newline ∉ utf8 "ssh-rsa" ++ space :: (publicKeyB64 blob ++ [space]) := by
      simp only [List.mem_append, List.mem_cons, List.not_mem_nil, or_false, not_or]
      exact ⟨by decide, by decide, hnewline, by decide⟩
    obtain ⟨l, ls, hlines⟩ := Lines.exists_lines_append (by simp) hfirst rest'
    refine ⟨utf8 "ssh-rsa" ++ space :: (publicKeyB64 blob ++ [space]) ++ l,
      List.mem_append_right _ ?_, ⟨115, _, rfl, by decide⟩, ?_⟩
    · have hassoc : utf8 "ssh-rsa" ++ space :: (publicKeyB64 blob ++ space :: rest') =
          utf8 "ssh-rsa" ++ space :: (publicKeyB64 blob ++ [space]) ++ rest' := by simp
      rw [hassoc, hlines]
      exact List.mem_cons_self
    · have hfields : (utf8 "ssh-rsa" ++ space :: (publicKeyB64 blob ++ [space]) ++ l).splitOn
          space = utf8 "ssh-rsa" :: publicKeyB64 blob :: l.splitOn space := by
        rw [List.append_assoc, List.cons_append, List.append_assoc, List.singleton_append,
          List.splitOn_append_cons_self_of_not_mem (by decide),
          List.splitOn_append_cons_self_of_not_mem hspace]
      rw [hfields]
      exact List.mem_cons_of_mem _ List.mem_cons_self

/-- Where the text of the key is in the file, the server reads it. -/
def Sound (content blob : Bytes) : Prop :=
  publicKeyB64 blob <:+: content → Authorises content blob

/-- **One update** of a sound file leaves a sound file, and authorises the key if it succeeds. -/
theorem sound_of_attempted {key : KeyPair} {old content blob : Bytes}
    {outcome : Outcome Error Copied} (hkey : key.publicKey.encode = .ok blob)
    (hold : Sound old blob) (h : Attempted key old outcome content) :
    Sound content blob ∧ ∀ copied, outcome = .ok copied → Authorises content blob := by
  cases h with
  | refused hfails => exact ⟨hold, fun copied hok => absurd hok (hfails copied)⟩
  | found hblob hin =>
      rw [hkey, Outcome.ok.injEq] at hblob
      subst hblob
      exact ⟨hold, fun _ _ => hold hin⟩
  | added hblob _ =>
      rw [hkey, Outcome.ok.injEq] at hblob
      subst hblob
      have hauth : Authorises (Lines.terminate newline old ++
          keyLine key (String.ofList (Base64.encode blob))) blob :=
        authorises_append_keyLine key (Lines.terminated_terminate old)
      exact ⟨fun _ => hauth, fun _ _ => hauth⟩
  | broken hblob hnew hfront hcontent =>
      rw [hkey, Outcome.ok.injEq] at hblob
      subst hblob
      refine ⟨?_, fun _ hok => by cases hok⟩
      intro hin
      rcases eq_or_terminated hfront hcontent with rfl | ⟨part, hpart, rfl⟩
      · exact absurd hin hnew
      · have hnewline := notMem_publicKeyB64 (b := newline) (by decide) blob
        have hpartial : publicKeyB64 blob <:+: part := by
          rcases Lines.infix_append_of_terminated hnewline (Lines.terminated_terminate old) hin with
            hin | hin
          · exact absurd (Lines.infix_of_infix_terminate hnewline hin) hnew
          · exact hin
        obtain ⟨rest, rfl, hrest⟩ := part_of_keyLine hkey hpart hpartial
        exact authorises_append_part (Lines.terminated_terminate old) hrest

/-! ## Repeated updates -/

/-- Updates without the erase option, one after the other: how each of them ends, and the content
after the last one. -/
def attempts : Bytes → List (KeyPair × RemoteFault) → List (Outcome Error Copied) × Bytes
  | content, [] => ([], content)
  | content, (key, fault) :: more =>
      let (outcome, content') := attempt false key (some content) fault
      let (outcomes, content'') := attempts content' more
      (outcome :: outcomes, content'')

theorem extends_attempts (old : Bytes) (updates : List (KeyPair × RemoteFault)) :
    Extends old (attempts old updates).2 := by
  induction updates generalizing old with
  | nil => exact Extends.refl old
  | cons update updates ih =>
      rcases update with ⟨key, fault⟩
      exact (extends_of_attempted (attempted key old fault)).trans (ih _)

theorem attempts_append (old : Bytes) (before after : List (KeyPair × RemoteFault)) :
    (attempts old (before ++ after)).2 = (attempts (attempts old before).2 after).2 := by
  induction before generalizing old with
  | nil => rfl
  | cons update before ih =>
      rcases update with ⟨key, fault⟩
      exact ih _

/-- **Interrupted updates**, of any keys and in any number, only add to the file: its text stays at
the front and its lines stay the first lines. What an update that succeeds authorises, whether it
added the key or found it where the server reads it, is still authorised after all of them. -/
theorem interrupted_updates_extend (old : Bytes) (updates : List (KeyPair × RemoteFault)) :
    Extends old (attempts old updates).2 ∧
      ∀ before key fault after copied blob, updates = before ++ (key, fault) :: after →
        (attempt false key (some (attempts old before).2) fault).1 = .ok copied →
        key.publicKey.encode = .ok blob → Sound (attempts old before).2 blob →
        Authorises (attempts old updates).2 blob := by
  refine ⟨extends_attempts old updates, ?_⟩
  rintro before key fault after copied blob rfl hok hkey hsound
  have hattempted := attempted key (attempts old before).2 fault
  rw [attempts_append]
  exact authorises_of_extends (extends_attempts _ after)
    ((sound_of_attempted hkey hsound hattempted).2 copied hok)

/-! ## Retries -/

/-- Nothing fails. -/
def noFault : RemoteFault where
  read := false
  seek := false
  room := none

/-- Where nothing fails, the update goes on behind the reading as `updateAuthorizedKeys` does. -/
theorem writeKey_noFault (key : KeyPair) (file : RemoteFile) (str : Bytes) :
    (do
      let blob ← key.publicKey.encode
      let publicKeyB64 := String.ofList (Base64.encode blob)
      if ¬ utf8 publicKeyB64 <:+: str then
        let file :=
          if str ≠ [] ∧ str.getLast? ≠ some newline then file.writeAll [newline] else file
        pure (Copied.added, (file.writeAll (keyLine key publicKeyB64)).content)
      else
        pure (Copied.exists, file.content)) =
      (writeKey key str { file, fault := noFault }).outcome >>= fun copied =>
        .ok (copied, (writeKey key str { file, fault := noFault }).world.file.content) := by
  rw [writeKey, Effect.lift_bind_apply]
  cases key.publicKey.encode with
  | err e => rfl
  | panic => rfl
  | ok blob =>
      simp only [Outcome.ok_bind]
      by_cases hin : utf8 (String.ofList (Base64.encode blob)) <:+: str
      · simp only [hin, not_true_eq_false, if_false]
        rfl
      · simp only [hin, not_false_eq_true, if_true]
        by_cases hend : str ≠ [] ∧ str.getLast? ≠ some newline
        · simp only [if_pos hend]
          rfl
        · simp only [if_neg hend]
          rfl

/-- **Refinement.** The update on a connection without a fault is `updateAuthorizedKeys`. -/
theorem updateAuthorizedKeys_eq_attempt (erase : Bool) (key : KeyPair) (old : Option Bytes) :
    updateAuthorizedKeys erase key old =
      (attempt erase key old noFault).1 >>= fun copied =>
        .ok (copied, (attempt erase key old noFault).2) := by
  cases erase with
  | true => exact writeKey_noFault key (.openMode old) []
  | false =>
      rw [updateAuthorizedKeys, attempt, updateRemote]
      let remote : Remote := { file := .openMode old, fault := noFault }
      cases hread : (RemoteFile.openMode old).readToString with
      | err e =>
          have hfails : readOld remote = ⟨.err e, remote, []⟩ := by
            apply Effect.bind_of_err
            simp only [Remote.readToString, remote, hread]
            rfl
          simp only [Bool.false_eq_true, if_false, remote, Effect.bind_of_err hfails]
          rfl
      | panic =>
          rw [RemoteFile.readToString] at hread
          split at hread
          · cases hread
          · cases hread
      | ok read =>
          rcases read with ⟨str, file⟩
          have hreads : Remote.readToString remote = ⟨.ok str, { remote with file }, []⟩ := by
            simp only [Remote.readToString, remote, hread]
            rfl
          have hall : readOld remote = ⟨.ok str, { remote with file := file.seekEnd }, []⟩ := by
            rw [readOld, Effect.bind_of_ok hreads]
            rfl
          simp only [Bool.false_eq_true, if_false, remote, Effect.bind_of_ok hall]
          exact writeKey_noFault key file.seekEnd str

/-- The updates of one key until one succeeds, and any number after it. -/
def retries (key : KeyPair) (old : Bytes) (faults : List RemoteFault) :
    List (Outcome Error Copied) × Bytes :=
  attempts old (faults.map fun fault => (key, fault))

theorem retries_sound {key : KeyPair} {blob : Bytes} (hkey : key.publicKey.encode = .ok blob)
    {old : Bytes} (hold : Sound old blob) (faults : List RemoteFault) {copied : Copied}
    (hmem : .ok copied ∈ (retries key old faults).1) :
    Authorises (retries key old faults).2 blob := by
  induction faults generalizing old with
  | nil => cases hmem
  | cons fault faults ih =>
      obtain ⟨hsound, hauth⟩ := sound_of_attempted hkey hold (attempted key old fault)
      rcases List.mem_cons.1 hmem with hfirst | hlater
      -- what the first update authorised, the others leave
      · exact authorises_of_extends (extends_attempts _ (faults.map fun fault => (key, fault)))
          (hauth copied hfirst.symm)
      · exact ih hsound hlater

/-- **Retries.** An update that is repeated until it succeeds, however the attempts before were
interrupted, authorises the key exactly when the text of the key was nowhere in the file before, or
was there in a line that the server reads. -/
theorem retried_update_authorises_iff (key : KeyPair) (old : String) (blob : Bytes)
    (hkey : key.publicKey.encode = .ok blob) :
    (∀ faults copied, .ok copied ∈ (retries key (utf8 old) faults).1 →
      Authorises (retries key (utf8 old) faults).2 blob) ↔ Sound (utf8 old) blob := by
  constructor
  · intro h hin
    have hupdate := updateAuthorizedKeys_eq_attempt false key (some (utf8 old))
    rw [updateAuthorizedKeys_text hkey, if_pos hin, eq_comm, Outcome.bind_eq_ok_iff] at hupdate
    obtain ⟨copied, hcopied, hcontent⟩ := hupdate
    rw [Outcome.ok.injEq, Prod.mk.injEq] at hcontent
    have hfirst : (attempt false key (some (utf8 old)) noFault).1 ∈
        (retries key (utf8 old) [noFault]).1 := List.mem_cons_self
    rw [hcopied] at hfirst
    have hauth := h [noFault] copied hfirst
    have hafter : (retries key (utf8 old) [noFault]).2 = utf8 old := hcontent.2
    rwa [hafter] at hauth
  · intro h faults copied hmem
    exact retries_sound hkey h faults hmem

/-- The first attempt breaks within the text of the key, the second succeeds. -/
theorem retried_after_break :
    Authorises (retries (smallPair smallKey "a") (utf8 "x") [⟨false, false, some 20⟩, noFault]).2
      smallBlob :=
  (retried_update_authorises_iff (smallPair smallKey "a") "x" smallBlob (by decide +kernel)).2
    (fun hin => absurd hin (by decide +kernel)) [⟨false, false, some 20⟩, noFault] .added
    (by decide +kernel)

/-! ## Broken characters -/

/-- The bytes of a text. -/
def IsUtf8 (bytes : Bytes) : Prop := ∃ s, bytes = utf8 s

theorem isUtf8_iff {bytes : Bytes} : IsUtf8 bytes ↔ (ByteArray.mk bytes.toArray).IsValidUTF8 := by
  constructor
  · rintro ⟨s, rfl⟩
    simpa [utf8] using s.isValidUTF8
  · intro h
    refine ⟨⟨_, h⟩, ?_⟩
    simp [utf8]

instance : DecidablePred IsUtf8 := fun bytes =>
  decidable_of_iff ((fromUtf8 bytes).isSome = true) (by
    rw [Option.isSome_iff_exists]
    exact exists_congr fun s => fromUtf8_eq_some_iff)

/-- Behind a text, only text makes text. -/
theorem isUtf8_append_iff (s : String) (bytes : Bytes) :
    IsUtf8 (utf8 s ++ bytes) ↔ IsUtf8 bytes := by
  have hchars (chars : List Char) (b : ByteArray) :
      (chars.utf8Encode ++ b).IsValidUTF8 ↔ b.IsValidUTF8 := by
    induction chars with
    | nil => simp
    | cons c chars ih =>
        rw [← List.singleton_append, List.utf8Encode_append, ByteArray.append_assoc,
          ByteArray.isValidUTF8_utf8Encode_singleton_append_iff, ih]
  have happend : ByteArray.mk (utf8 s ++ bytes).toArray =
      s.toList.utf8Encode ++ ByteArray.mk bytes.toArray := by
    apply ByteArray.ext
    simp [utf8]
  rw [isUtf8_iff, isUtf8_iff, happend, hchars]

/-- Without a fault, an update succeeds on text and on nothing else. -/
theorem attempt_noFault_iff {key : KeyPair} {blob : Bytes} (hkey : key.publicKey.encode = .ok blob)
    (content : Bytes) :
    (∃ copied, (attempt false key (some content) noFault).1 = .ok copied) ↔ IsUtf8 content := by
  have hupdate := updateAuthorizedKeys_eq_attempt false key (some content)
  constructor
  · rintro ⟨copied, hok⟩
    cases htext : fromUtf8 content with
    | some text => exact ⟨text, fromUtf8_eq_some_iff.1 htext⟩
    | none =>
        rw [hok, Outcome.ok_bind] at hupdate
        simp [updateAuthorizedKeys, RemoteFile.readToString, RemoteFile.openMode, htext] at hupdate
  · rintro ⟨text, rfl⟩
    cases houtcome : (attempt false key (some (utf8 text)) noFault).1 with
    | ok copied => exact ⟨copied, rfl⟩
    | err e =>
        rw [houtcome, updateAuthorizedKeys_text hkey, Outcome.err_bind] at hupdate
        split at hupdate
        · cases hupdate
        · cases hupdate
    | panic =>
        rw [houtcome, updateAuthorizedKeys_text hkey, Outcome.panic_bind] at hupdate
        split at hupdate
        · cases hupdate
        · cases hupdate

/-- **The next update** of a text, after any that were interrupted, succeeds exactly when what they
wrote is text as a whole: a character that was cut in two keeps every later update from its work. -/
theorem next_update_succeeds_iff (old : String) (updates : List (KeyPair × RemoteFault))
    (key : KeyPair) (blob : Bytes) (hkey : key.publicKey.encode = .ok blob) :
    (∃ copied, (attempt false key (some (attempts (utf8 old) updates).2) noFault).1 =
        .ok copied) ↔
      IsUtf8 ((attempts (utf8 old) updates).2.drop (utf8 old).length) := by
  obtain ⟨written, hwritten⟩ := (extends_attempts (utf8 old) updates).text
  rw [attempt_noFault_iff hkey, ← hwritten, isUtf8_append_iff, List.drop_left]

/-- The name of the key is a character of two bytes, of which one is written. The update cannot be
repeated. -/
theorem cut_name_blocks_updates :
    ¬ ∃ copied, (attempt false (smallPair smallKey "é")
      (some (attempts (utf8 "") [(smallPair smallKey "é", ⟨false, false, some 38⟩)]).2)
      noFault).1 = .ok copied := by
  intro h
  exact absurd
    ((next_update_succeeds_iff "" [(smallPair smallKey "é", ⟨false, false, some 38⟩)]
      (smallPair smallKey "é") smallBlob (by decide +kernel)).1 h)
    (by decide +kernel)

end SshKeys
