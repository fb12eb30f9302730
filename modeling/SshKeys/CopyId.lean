import SshKeys.Store
import SshKeys.Lib.Base64

/-!
# Copying a public key to a server

The update of the remote `authorized_keys` file at the end of `copy_id`, after `copy_id.rs`. The
file is opened for reading and writing and keeps its content. Without the erase option it is read
and the new line goes to its end; with it the line is written at the beginning, over what is there.
The operations on the remote file succeed here, except for the reading of a file that is not UTF-8.

`erase_leaves_one_line_iff` says when an update with the erase option leaves nothing but the line.
-/

set_option autoImplicit false

namespace SshKeys

open Lib

/-! ## Remote files -/

/-- An open file and the place in it where the next operation begins. -/
structure RemoteFile where
  content : Bytes
  pos : Nat
  pos_le : pos ≤ content.length

namespace RemoteFile

/-- `sftp.open_mode` with `CREATE | READ | WRITE`: a missing file is created, and what is in the
file stays there. -/
def openMode (old : Option Bytes) : RemoteFile where
  content := old.getD []
  pos := 0
  pos_le := Nat.zero_le _

/-- `seek(SeekFrom::End(0))` -/
def seekEnd (file : RemoteFile) : RemoteFile where
  content := file.content
  pos := file.content.length
  pos_le := Nat.le_refl _

/-- `read_to_string`. A `String` is the list of its bytes here. -/
def readToString (file : RemoteFile) : Outcome Error (Bytes × RemoteFile) :=
  let str := file.content.drop file.pos
  match fromUtf8 str with
  | some _ => .ok (str, file.seekEnd)
  | none => .err .fromUtf8

/-- `write_all`. What was at the place is overwritten. -/
def writeAll (file : RemoteFile) (data : Bytes) : RemoteFile where
  content := file.content.take file.pos ++ data ++ file.content.drop (file.pos + data.length)
  pos := file.pos + data.length
  pos_le := by
    have hpos : (file.content.take file.pos).length = file.pos :=
      List.length_take_of_le file.pos_le
    rw [List.length_append, List.length_append, hpos]
    exact Nat.le_add_right _ _

end RemoteFile

/-! ## The update -/

/-- What `copy_id` prints. -/
inductive Copied where
  | added
  | exists
  deriving DecidableEq

/-- The line for a key whose encoding in base64 is `publicKeyB64`. -/
def keyLine (key : KeyPair) (publicKeyB64 : String) : Bytes :=
  utf8 (key.publicKey.keyType ++ " " ++ publicKeyB64 ++ " " ++ key.name ++ "\n")

/-- The end of a line. -/
def newline : UInt8 := 10

/-- The end of `copy_id`, from the opening of `authorized_keys` on: what is printed, and the content
of the file after it. -/
def updateAuthorizedKeys (erase : Bool) (key : KeyPair) (old : Option Bytes) :
    Outcome Error (Copied × Bytes) := do
  let file := RemoteFile.openMode old
  let (str, file) ←
    if erase then pure ([], file)
    else do
      let (str, file) ← file.readToString
      pure (str, file.seekEnd)
  let blob ← key.publicKey.encode
  let publicKeyB64 := String.ofList (Base64.encode blob)
  if ¬ utf8 publicKeyB64 <:+: str then
    -- the line starts on a line of its own
    let file :=
      if str ≠ [] ∧ str.getLast? ≠ some newline then file.writeAll [newline] else file
    pure (.added, (file.writeAll (keyLine key publicKeyB64)).content)
  else
    pure (.exists, file.content)

/-! ## Erasing -/

/-- The line that an update writes, if the key can be encoded. -/
def lineFor (key : KeyPair) : Outcome Error Bytes := do
  let blob ← key.publicKey.encode
  pure (keyLine key (String.ofList (Base64.encode blob)))

/-- An update with the erase option that completes leaves the line of the key and nothing else. -/
def EraseLeavesOneLine (key : KeyPair) (old : Option Bytes) : Prop :=
  ∀ copied content, updateAuthorizedKeys true key old = .ok (copied, content) →
    lineFor key = .ok content

theorem encode_ne_nil {k : PublicKey} {blob : Bytes} (h : k.encode = .ok blob) : blob ≠ [] := by
  rcases k with ⟨e, n⟩
  obtain ⟨-, rfl⟩ := PublicKey.encode_eq_ok_iff.1 h
  simp [publicBlob, writeString, writeU32, BigEndian.toWord]

theorem utf8_eq_nil_iff {s : String} : utf8 s = [] ↔ s = "" := by
  constructor
  · intro h
    have hs := fromUtf8_utf8 s
    rw [h] at hs
    exact (Option.some.inj (hs.symm.trans (fromUtf8_utf8 ""))).trans rfl
  · rintro rfl
    rfl

/-- The bytes of `public_key_b64`. -/
def publicKeyB64 (blob : Bytes) : Bytes := utf8 (String.ofList (Base64.encode blob))

theorem publicKeyB64_ne_nil {k : PublicKey} {blob : Bytes} (h : k.encode = .ok blob) :
    publicKeyB64 blob ≠ [] := by
  rw [publicKeyB64, Ne, utf8_eq_nil_iff]
  intro hempty
  apply encode_ne_nil h
  rw [← Base64.encode_eq_nil_iff]
  have hlist := congrArg String.toList hempty
  rwa [String.toList_ofList] at hlist

/-- With the erase option the line overwrites the beginning of the file. -/
theorem updateAuthorizedKeys_erase {key : KeyPair} {old : Option Bytes} :
    updateAuthorizedKeys true key old =
      lineFor key >>= fun line => .ok (.added, line ++ (old.getD []).drop line.length) := by
  cases hblob : key.publicKey.encode with
  | err e => simp [updateAuthorizedKeys, lineFor, hblob]
  | panic => simp [updateAuthorizedKeys, lineFor, hblob]
  | ok blob =>
      -- the text that was read is empty, and the key is not in it
      have hnot : ¬ utf8 (String.ofList (Base64.encode blob)) <:+: [] := by
        rw [List.infix_nil]
        exact publicKeyB64_ne_nil hblob
      simp [updateAuthorizedKeys, lineFor, hblob, hnot, RemoteFile.openMode, RemoteFile.writeAll]

/-- **Erasing.** An update with the erase option leaves nothing but the line of the key exactly when
the old content is not longer than this line, or the key cannot be encoded. -/
theorem erase_leaves_one_line_iff (key : KeyPair) (old : Option Bytes) :
    EraseLeavesOneLine key old ↔
      ∀ line, lineFor key = .ok line → (old.getD []).length ≤ line.length := by
  rw [EraseLeavesOneLine, updateAuthorizedKeys_erase]
  cases hline : lineFor key with
  | err e => simp
  | panic => simp
  | ok line =>
      simp only [Outcome.ok_bind, Outcome.ok.injEq, Prod.mk.injEq]
      constructor
      · rintro h line' rfl
        have hdrop := h .added _ ⟨rfl, rfl⟩
        rw [List.self_eq_append_right] at hdrop
        exact List.drop_eq_nil_iff.1 hdrop
      · rintro h copied content ⟨-, rfl⟩
        rw [List.drop_eq_nil_iff.2 (h line rfl), List.append_nil]

/-- The line of another key. -/
def otherLine : Bytes := ((lineFor (smallPair { smallKey with e := 7 } "b")).toOption).getD []

/-- Of two old lines the second is still there after an update with the erase option. -/
theorem erase_leaves_other_key :
    (lineFor (smallPair smallKey "a") >>= fun line => .ok (.added, line ++ otherLine)) =
        updateAuthorizedKeys true (smallPair smallKey "a") (some (otherLine ++ otherLine)) ∧
      ¬ EraseLeavesOneLine (smallPair smallKey "a") (some (otherLine ++ otherLine)) := by
  constructor
  · decide +kernel
  · intro h
    have hcontent := h .added (((lineFor (smallPair smallKey "a")).toOption).getD [] ++ otherLine)
      (by decide +kernel)
    exact absurd hcontent (by decide +kernel)

end SshKeys
