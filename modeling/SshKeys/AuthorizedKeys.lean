import SshKeys.CopyId
import SshKeys.Lib.Lines

/-!
# The authorized keys of a server

What the updates of `authorized_keys` without the erase option leave in the file, line by line.

`copy_authorises_iff` says when the key is authorised after an update: the update looks for the key
anywhere in the file, also where the server does not read it. `updates_append` says that a sequence
of updates only adds lines and that repeating an update changes nothing.
-/

set_option autoImplicit false

namespace SshKeys

open Lib

/-! ## The text of a key -/

theorem utf8_append (s t : String) : utf8 (s ++ t) = utf8 s ++ utf8 t := by
  rw [utf8, String.toByteArray_append, ByteArray.data_append, Array.toList_append]
  rfl

/-- Text in ASCII has a byte for every character. -/
theorem utf8_ofList {cs : List Char} (h : ∀ c ∈ cs, c.toNat < 128) :
    utf8 (String.ofList cs) = cs.map fun c => c.val.toUInt8 := by
  induction cs with
  | nil => rfl
  | cons c cs ih =>
      have hc : c.toNat < 128 := h c List.mem_cons_self
      have hsize : c.utf8Size = 1 := by
        rw [Char.utf8Size_eq_one_iff, UInt32.le_iff_toNat_le]
        exact Nat.le_of_lt_succ hc
      have hhead : utf8 (String.ofList [c]) = [c.val.toUInt8] := by
        rw [utf8, String.toByteArray_ofList, List.utf8Encode_singleton, List.data_toByteArray,
          String.utf8EncodeChar_eq_singleton hsize]
      have hsplit : String.ofList (c :: cs) = String.ofList [c] ++ String.ofList cs := by
        rw [← String.ofList_append]
        rfl
      rw [hsplit, utf8_append, hhead, ih fun c' hc' => h c' (List.mem_cons_of_mem c hc')]
      rfl

theorem publicKeyB64_printable {blob : Bytes} {b : UInt8} (h : b ∈ publicKeyB64 blob) :
    32 < b.toNat ∧ b.toNat < 127 := by
  have hascii : ∀ c ∈ Base64.encode blob, c.toNat < 128 := by
    intro c hc
    have := Base64.encode_printable hc
    omega
  rw [publicKeyB64, utf8_ofList hascii, List.mem_map] at h
  obtain ⟨c, hc, rfl⟩ := h
  have hprint := Base64.encode_printable hc
  have hnat : c.val.toUInt8.toNat = c.toNat := by
    rw [UInt32.toNat_toUInt8]
    exact Nat.mod_eq_of_lt (Nat.lt_trans hprint.2 (by decide))
  rw [hnat]
  exact hprint

/-! ## One update -/

/-- At its end a file is written to by appending, and stays at its end. -/
theorem RemoteFile.writeAll_of_end {file : RemoteFile} (h : file.pos = file.content.length)
    (data : Bytes) :
    (file.writeAll data).content = file.content ++ data ∧
      (file.writeAll data).pos = (file.writeAll data).content.length := by
  have hcontent : (file.writeAll data).content = file.content ++ data := by
    simp [RemoteFile.writeAll, h]
  refine ⟨hcontent, ?_⟩
  rw [hcontent, List.length_append, ← h]
  rfl

/-- The update of a file that holds a text. -/
theorem updateAuthorizedKeys_text {key : KeyPair} {blob : Bytes}
    (h : key.publicKey.encode = .ok blob) (text : String) :
    updateAuthorizedKeys false key (some (utf8 text)) =
      if publicKeyB64 blob <:+: utf8 text then .ok (.exists, utf8 text)
      else .ok (.added, Lines.terminate newline (utf8 text) ++
        keyLine key (String.ofList (Base64.encode blob))) := by
  have hread : (RemoteFile.openMode (some (utf8 text))).readToString =
      .ok (utf8 text, (RemoteFile.openMode (some (utf8 text))).seekEnd) := by
    simp [RemoteFile.readToString, RemoteFile.openMode]
  have hcontent : (RemoteFile.openMode (some (utf8 text))).seekEnd.seekEnd.content = utf8 text :=
    rfl
  have hat : (RemoteFile.openMode (some (utf8 text))).seekEnd.seekEnd.pos =
      (RemoteFile.openMode (some (utf8 text))).seekEnd.seekEnd.content.length := rfl
  by_cases hin : publicKeyB64 blob <:+: utf8 text
  · have hin' : utf8 (String.ofList (Base64.encode blob)) <:+: utf8 text := hin
    rw [if_pos hin]
    simp [updateAuthorizedKeys, hread, h, hin', hcontent]
  · have hin' : ¬ utf8 (String.ofList (Base64.encode blob)) <:+: utf8 text := hin
    rw [if_neg hin]
    by_cases hend : utf8 text ≠ [] ∧ (utf8 text).getLast? ≠ some newline
    · -- the missing line break and then the line
      obtain ⟨hbreak, hpos⟩ := RemoteFile.writeAll_of_end hat [newline]
      simp [updateAuthorizedKeys, hread, h, hin', hend, RemoteFile.writeAll_of_end hpos, hbreak,
        Lines.terminate, hcontent]
    · simp [updateAuthorizedKeys, hread, h, hin', hend, Lines.terminate,
        RemoteFile.writeAll_of_end hat, hcontent]

/-- An update of a text that completes had a key to look for. -/
theorem exists_encode_of_update {key : KeyPair} {text : String} {copied : Copied} {content : Bytes}
    (h : updateAuthorizedKeys false key (some (utf8 text)) = .ok (copied, content)) :
    ∃ blob, key.publicKey.encode = .ok blob := by
  cases hblob : key.publicKey.encode with
  | ok blob => exact ⟨blob, rfl⟩
  | err e => simp [updateAuthorizedKeys, RemoteFile.readToString, RemoteFile.openMode, hblob] at h
  | panic => simp [updateAuthorizedKeys, RemoteFile.readToString, RemoteFile.openMode, hblob] at h

/-! ## Active lines -/

/-- The characters that the server looks at to tell the lines apart that it reads. -/
def space : UInt8 := 32

def tab : UInt8 := 9

def numberSign : UInt8 := 35

/-- A line that the server reads: not blank, and not a comment. -/
def ActiveLine (line : Bytes) : Prop :=
  ∃ b rest, line.dropWhile (fun b => b = space ∨ b = tab) = b :: rest ∧ b ≠ numberSign

instance : DecidablePred ActiveLine := fun line =>
  match h : line.dropWhile (fun b => b = space ∨ b = tab) with
  | [] => isFalse fun ⟨b, rest, hline, _⟩ => by rw [h] at hline; cases hline
  | b :: rest =>
      if hb : b = numberSign then
        isFalse fun ⟨b', rest', hline, hb'⟩ => by rw [h] at hline; cases hline; exact hb' hb
      else isTrue ⟨b, rest, h, hb⟩

/-- The server reads a line with the key as one of its fields. -/
def Authorises (content blob : Bytes) : Prop :=
  ∃ line ∈ Lines.lines newline content, ActiveLine line ∧ publicKeyB64 blob ∈ line.splitOn space

instance (content blob : Bytes) : Decidable (Authorises content blob) :=
  inferInstanceAs (Decidable (∃ line ∈ Lines.lines newline content, _))

theorem keyLine_eq (key : KeyPair) (blob : Bytes) :
    keyLine key (String.ofList (Base64.encode blob)) = utf8 key.publicKey.keyType ++
      space :: (publicKeyB64 blob ++ space :: utf8 (key.name ++ "\n")) := by
  simp only [keyLine, utf8_append, List.append_assoc]
  rfl

theorem infix_keyLine (key : KeyPair) (blob : Bytes) :
    publicKeyB64 blob <:+: keyLine key (String.ofList (Base64.encode blob)) := by
  rw [keyLine_eq]
  refine ⟨utf8 key.publicKey.keyType ++ [space], space :: utf8 (key.name ++ "\n"), ?_⟩
  simp only [List.append_assoc, List.cons_append, List.nil_append]

/-- What follows a text on a line of its own with the key is read by the server. -/
theorem authorises_append_keyLine {start blob : Bytes} (key : KeyPair)
    (hstart : Lines.Terminated newline start) :
    Authorises (start ++ keyLine key (String.ofList (Base64.encode blob))) blob := by
  have htype : utf8 key.publicKey.keyType = utf8 "ssh-rsa" := by
    rcases key.publicKey with ⟨e, n⟩
    rfl
  have hblob (b : UInt8) (hb : b.toNat ≤ 32) : b ∉ publicKeyB64 blob := by
    intro hmem
    exact absurd (publicKeyB64_printable hmem).1 (by omega)
  -- type and key are on the first line that is written, whatever the name is
  have hfirst : newline ∉ utf8 "ssh-rsa" ++ space :: (publicKeyB64 blob ++ [space]) := by
    simp only [List.mem_append, List.mem_cons, List.not_mem_nil, or_false, not_or]
    exact ⟨by decide, by decide, hblob newline (by decide), by decide⟩
  obtain ⟨l, ls, hlines⟩ := Lines.exists_lines_append (by simp) hfirst (utf8 (key.name ++ "\n"))
  refine ⟨utf8 "ssh-rsa" ++ space :: (publicKeyB64 blob ++ [space]) ++ l, ?_, ?_, ?_⟩
  · rw [Lines.lines_append hstart, keyLine_eq, htype]
    apply List.mem_append_right
    have hassoc : utf8 "ssh-rsa" ++ space :: (publicKeyB64 blob ++ space :: utf8 (key.name ++ "\n"))
        = utf8 "ssh-rsa" ++ space :: (publicKeyB64 blob ++ [space]) ++ utf8 (key.name ++ "\n") := by
      simp
    rw [hassoc, hlines]
    exact List.mem_cons_self
  · exact ⟨115, _, rfl, by decide⟩
  · have hfields : (utf8 "ssh-rsa" ++ space :: (publicKeyB64 blob ++ [space]) ++ l).splitOn space =
        utf8 "ssh-rsa" :: publicKeyB64 blob :: l.splitOn space := by
      rw [List.append_assoc, List.cons_append, List.append_assoc, List.singleton_append,
        List.splitOn_append_cons_self_of_not_mem (by decide),
        List.splitOn_append_cons_self_of_not_mem (hblob space (by decide))]
    rw [hfields]
    exact List.mem_cons_of_mem _ List.mem_cons_self

/-- After an update that completes, whatever it reports, the key is authorised. -/
def CopyAuthorises (key : KeyPair) (old : String) : Prop :=
  ∀ copied content, updateAuthorizedKeys false key (some (utf8 old)) = .ok (copied, content) →
    ∃ blob, key.publicKey.encode = .ok blob ∧ Authorises content blob

/-- **Authorising.** After an update the key is authorised exactly when its text was nowhere in the
file before, or was there in a line that authorises it. -/
theorem copy_authorises_iff (key : KeyPair) (old : String) :
    CopyAuthorises key old ↔
      ∀ blob, key.publicKey.encode = .ok blob →
        publicKeyB64 blob <:+: utf8 old → Authorises (utf8 old) blob := by
  constructor
  · intro h blob hblob hin
    have hupdate : updateAuthorizedKeys false key (some (utf8 old)) = .ok (.exists, utf8 old) := by
      rw [updateAuthorizedKeys_text hblob, if_pos hin]
    obtain ⟨blob', hblob', hauth⟩ := h _ _ hupdate
    rw [hblob, Outcome.ok.injEq] at hblob'
    rwa [hblob']
  · intro h copied content hupdate
    obtain ⟨blob, hblob⟩ := exists_encode_of_update hupdate
    refine ⟨blob, hblob, ?_⟩
    rw [updateAuthorizedKeys_text hblob] at hupdate
    by_cases hin : publicKeyB64 blob <:+: utf8 old
    -- the file stays as it is
    · rw [if_pos hin] at hupdate
      cases hupdate
      exact h blob hblob hin
    · rw [if_neg hin] at hupdate
      cases hupdate
      exact authorises_append_keyLine key (Lines.terminated_terminate _)

/-- A file in which the key is commented out. -/
def commentedOut : String := "#ssh-rsa " ++ String.ofList (Base64.encode smallBlob) ++ " a\n"

/-- With the key in a comment an update reports that it exists, and it is not authorised. -/
theorem commented_key_not_authorised :
    updateAuthorizedKeys false (smallPair smallKey "a") (some (utf8 commentedOut)) =
        .ok (.exists, utf8 commentedOut) ∧
      ¬ CopyAuthorises (smallPair smallKey "a") commentedOut := by
  have hupdate : updateAuthorizedKeys false (smallPair smallKey "a") (some (utf8 commentedOut)) =
      .ok (.exists, utf8 commentedOut) := by decide +kernel
  refine ⟨hupdate, ?_⟩
  intro h
  obtain ⟨blob, hblob, hauth⟩ := h _ _ hupdate
  have hsmall : (smallPair smallKey "a").publicKey.encode = .ok smallBlob := by decide +kernel
  rw [hsmall, Outcome.ok.injEq] at hblob
  subst hblob
  exact absurd hauth (by decide +kernel)

/-! ## Sequences of updates -/

/-- The content of the file after an update. An update that fails has not written to it. -/
def afterUpdate (content : Bytes) (key : KeyPair) : Bytes :=
  match updateAuthorizedKeys false key (some content) with
  | .ok (_, content') => content'
  | .err _ => content
  | .panic => content

/-- The content of the file after one update for each key. -/
def afterUpdates (content : Bytes) (keys : List KeyPair) : Bytes := keys.foldl afterUpdate content

/-- The file still has its text, with more lines behind its lines. -/
structure Extends (old new : Bytes) : Prop where
  text : old <+: new
  lines : Lines.lines newline old <+: Lines.lines newline new

theorem Extends.refl (content : Bytes) : Extends content content :=
  ⟨List.prefix_refl _, List.prefix_refl _⟩

theorem Extends.trans {a b c : Bytes} (h : Extends a b) (h' : Extends b c) : Extends a c :=
  ⟨h.text.trans h'.text, h.lines.trans h'.lines⟩

theorem extends_terminate_append (old line : Bytes) :
    Extends old (Lines.terminate newline old ++ line) := by
  constructor
  · exact (Lines.prefix_terminate old).trans (List.prefix_append _ _)
  · rw [Lines.lines_append (Lines.terminated_terminate old), Lines.lines_terminate]
    exact List.prefix_append _ _

theorem exists_terminate_eq (text : String) :
    ∃ text', Lines.terminate newline (utf8 text) = utf8 text' := by
  rw [Lines.terminate]
  split
  · exact ⟨text ++ "\n", (utf8_append text "\n").symm⟩
  · exact ⟨text, rfl⟩

/-- **One update** extends the text of the file to a text with the key. -/
theorem exists_afterUpdate (key : KeyPair) (text : String) :
    ∃ text', afterUpdate (utf8 text) key = utf8 text' ∧ Extends (utf8 text) (utf8 text') ∧
      ∀ blob, key.publicKey.encode = .ok blob → publicKeyB64 blob <:+: utf8 text' := by
  cases hblob : key.publicKey.encode with
  | err e =>
      refine ⟨text, ?_, Extends.refl _, fun blob h => by cases h⟩
      simp [afterUpdate, updateAuthorizedKeys, RemoteFile.readToString, RemoteFile.openMode, hblob]
  | panic =>
      refine ⟨text, ?_, Extends.refl _, fun blob h => by cases h⟩
      simp [afterUpdate, updateAuthorizedKeys, RemoteFile.readToString, RemoteFile.openMode, hblob]
  | ok blob =>
      rw [afterUpdate, updateAuthorizedKeys_text hblob]
      by_cases hin : publicKeyB64 blob <:+: utf8 text
      · rw [if_pos hin]
        refine ⟨text, rfl, Extends.refl _, ?_⟩
        rintro blob' ⟨⟩
        exact hin
      · rw [if_neg hin]
        obtain ⟨ended, hended⟩ := exists_terminate_eq text
        obtain ⟨line, hline⟩ : ∃ line : String,
            keyLine key (String.ofList (Base64.encode blob)) = utf8 line := ⟨_, rfl⟩
        refine ⟨ended ++ line, ?_, ?_, ?_⟩
        · rw [utf8_append, ← hended, ← hline]
        · rw [utf8_append, ← hended]
          exact extends_terminate_append _ _
        · rintro blob' ⟨⟩
          rw [utf8_append, ← hline]
          exact (infix_keyLine key blob).trans (List.suffix_append _ _).isInfix

/-- **All updates** together extend the text of the file to a text with all the keys. -/
theorem exists_afterUpdates (keys : List KeyPair) (text : String) :
    ∃ text', afterUpdates (utf8 text) keys = utf8 text' ∧ Extends (utf8 text) (utf8 text') ∧
      ∀ key ∈ keys, ∀ blob, key.publicKey.encode = .ok blob →
        publicKeyB64 blob <:+: utf8 text' := by
  induction keys generalizing text with
  | nil => exact ⟨text, rfl, Extends.refl _, fun key hkey => by cases hkey⟩
  | cons key keys ih =>
      obtain ⟨mid, hmid, hextends, hin⟩ := exists_afterUpdate key text
      obtain ⟨text', htext', hextends', hin'⟩ := ih mid
      refine ⟨text', ?_, hextends.trans hextends', ?_⟩
      · rw [afterUpdates, List.foldl_cons, hmid]
        exact htext'
      · intro key' hkey' blob hblob
        rcases List.mem_cons.1 hkey' with rfl | hkey'
        -- the key of the first update is still there after the others
        · exact (hin blob hblob).trans hextends'.text.isInfix
        · exact hin' key' hkey' blob hblob

theorem afterUpdate_eq_self {key : KeyPair} {text : String}
    (h : ∀ blob, key.publicKey.encode = .ok blob → publicKeyB64 blob <:+: utf8 text) :
    afterUpdate (utf8 text) key = utf8 text := by
  rw [afterUpdate]
  split
  · next copied content hupdate =>
      obtain ⟨blob, hblob⟩ := exists_encode_of_update hupdate
      rw [updateAuthorizedKeys_text hblob, if_pos (h blob hblob)] at hupdate
      cases hupdate
      rfl
  · rfl
  · rfl

/-- **Sequences of updates** only add to the file. Its lines stay the first lines, what an update
writes begins on a line of its own, every key is in the file at the end, and no update that is
repeated then changes it. -/
theorem updates_append (text : String) (keys : List KeyPair) :
    Lines.lines newline (utf8 text) <+: Lines.lines newline (afterUpdates (utf8 text) keys) ∧
    (∀ before key after content, keys = before ++ key :: after →
      updateAuthorizedKeys false key (some (afterUpdates (utf8 text) before)) =
        .ok (.added, content) →
      ∃ start line, content = start ++ line ∧ lineFor key = .ok line ∧
        afterUpdates (utf8 text) before <+: start ∧
        (start = [] ∨ start.getLast? = some newline)) ∧
    (∀ key ∈ keys, ∀ blob, key.publicKey.encode = .ok blob →
      publicKeyB64 blob <:+: afterUpdates (utf8 text) keys) ∧
    ∀ key ∈ keys, afterUpdate (afterUpdates (utf8 text) keys) key =
      afterUpdates (utf8 text) keys := by
  obtain ⟨text', htext', hextends, hin⟩ := exists_afterUpdates keys text
  rw [htext']
  refine ⟨hextends.lines, ?_, hin, ?_⟩
  · intro before key after content _ hupdate
    obtain ⟨mid, hmid, -, -⟩ := exists_afterUpdates before text
    rw [hmid] at hupdate ⊢
    obtain ⟨blob, hblob⟩ := exists_encode_of_update hupdate
    rw [updateAuthorizedKeys_text hblob] at hupdate
    split at hupdate
    · cases hupdate
    · cases hupdate
      refine ⟨_, _, rfl, ?_, Lines.prefix_terminate _, Lines.terminated_terminate _⟩
      rw [lineFor, hblob]
      rfl
  · intro key hkey
    exact afterUpdate_eq_self (hin key hkey)

/-- Two keys for a server whose file has one line, without an end. Each update writes a line, and
that of the second begins behind that of the first. -/
theorem updates_append_two_lines :
    (Lines.lines newline (afterUpdates (utf8 "# mine")
      [smallPair smallKey "a", smallPair { smallKey with e := 7 } "b"])).length = 3 ∧
    ∃ start line, afterUpdates (utf8 "# mine")
        [smallPair smallKey "a", smallPair { smallKey with e := 7 } "b"] = start ++ line ∧
      lineFor (smallPair { smallKey with e := 7 } "b") = .ok line ∧
      afterUpdates (utf8 "# mine") [smallPair smallKey "a"] <+: start ∧
      (start = [] ∨ start.getLast? = some newline) :=
  ⟨by decide +kernel,
    (updates_append "# mine" [smallPair smallKey "a", smallPair { smallKey with e := 7 } "b"]).2.1
      [smallPair smallKey "a"] (smallPair { smallKey with e := 7 } "b") [] _ rfl
      (by decide +kernel)⟩

end SshKeys
