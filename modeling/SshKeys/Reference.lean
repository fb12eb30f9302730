import SshKeys.Agent
import Mathlib.Data.Nat.Digits.Lemmas

/-!
# Reference crates

Crates that meet what the program relies on (`Reference.lawful`), so that results about all lawful
crates say something. A document is written as TOML tables with quoted names and values, and the
empty text is no document; a key is the text of its eight numbers, and signing is textbook RSA.
`addIdentityRequest` and `signRequestMessage` write requests as a client does.
-/

set_option autoImplicit false

namespace SshKeys

open Lib

namespace Reference

/-! ## Keys as text -/

/-- A number as binary digits, least significant first, and a line break. -/
def numberText (n : BigNum) : List Char :=
  (Nat.digits 2 n.val).map (fun d => if d = 1 then '1' else '0') ++ ['\n']

/-- The value of the digits up to the line break. -/
def readDigits : List Char → Option (Nat × List Char)
  | [] => none
  | c :: rest =>
      if c = '\n' then some (0, rest)
      else (readDigits rest).map fun p => ((if c = '1' then 1 else 0) + 2 * p.1, p.2)

/-- The number of a line. -/
def readNumber (s : List Char) : Option (BigNum × List Char) := do
  let (n, rest) ← readDigits s
  let bn ← BigNum.ofNat? n
  pure (bn, rest)

theorem readDigits_digits (ds : List Nat) (hds : ∀ d ∈ ds, d < 2) (rest : List Char) :
    readDigits (ds.map (fun d => if d = 1 then '1' else '0') ++ '\n' :: rest) =
      some (Nat.ofDigits 2 ds, rest) := by
  induction ds with
  | nil => simp [readDigits]
  | cons d ds ih =>
      have hd : d = 0 ∨ d = 1 := by
        have := hds d List.mem_cons_self
        omega
      have hrest := ih fun d hd => hds d (List.mem_cons_of_mem _ hd)
      rw [List.map_cons, List.cons_append, readDigits, hrest, Nat.ofDigits_cons]
      rcases hd with rfl | rfl <;> simp

@[simp] theorem readNumber_numberText (n : BigNum) (rest : List Char) :
    readNumber (numberText n ++ rest) = some (n, rest) := by
  have hdigits : ∀ d ∈ Nat.digits 2 n.val, d < 2 :=
    fun d hd => Nat.digits_lt_base (by norm_num) hd
  have h := readDigits_digits (Nat.digits 2 n.val) hdigits rest
  have hn : BigNum.ofNat? n.val = some n := BigNum.ofNat?_eq_some_iff.2 rfl
  rw [readNumber, numberText, List.append_assoc, List.singleton_append, h, Nat.ofDigits_digits]
  simp only [Option.bind_eq_bind, Option.bind_some, hn, Option.pure_def]

/-- The eight numbers of a key and a line break. -/
def keyText (key : Rsa) : List Char :=
  numberText key.n ++ (numberText key.e ++ (numberText key.d ++ (numberText key.p ++
    (numberText key.q ++ (numberText key.dmp1 ++ (numberText key.dmq1 ++
      (numberText key.iqmp ++ ['\n'])))))))

/-- The key of a text. -/
def readKey (s : List Char) : Option Rsa := do
  let (n, s) ← readNumber s
  let (e, s) ← readNumber s
  let (d, s) ← readNumber s
  let (p, s) ← readNumber s
  let (q, s) ← readNumber s
  let (dmp1, s) ← readNumber s
  let (dmq1, s) ← readNumber s
  let (iqmp, _) ← readNumber s
  pure { n, e, d, p, q, dmp1, dmq1, iqmp }

theorem readKey_keyText (key : Rsa) : readKey (keyText key) = some key := by
  simp only [readKey, keyText, readNumber_numberText, Option.bind_eq_bind, Option.bind_some,
    Option.pure_def]

/-! ## Documents as text -/

/-- A character inside quotes. -/
def escape (c : Char) : List Char :=
  if c = '"' then ['\\', '"']
  else if c = '\\' then ['\\', '\\']
  else if c = '\n' then ['\\', 'n']
  else [c]

/-- The quoted text up to the closing quote, and what follows it. -/
def readQuoted : List Char → Option (List Char × List Char)
  | [] => none
  | [c] => if c = '"' then some ([], []) else none
  | c :: c' :: rest =>
      if c = '"' then some ([], c' :: rest)
      else if c = '\\' then
        (readQuoted rest).map fun p => ((if c' = 'n' then '\n' else c') :: p.1, p.2)
      else (readQuoted (c' :: rest)).map fun p => (c :: p.1, p.2)

theorem readQuoted_quote (rest : List Char) : readQuoted ('"' :: rest) = some ([], rest) := by
  cases rest <;> simp [readQuoted]

theorem readQuoted_escape (c : Char) (s : List Char) (hs : s ≠ []) :
    readQuoted (escape c ++ s) = (readQuoted s).map fun p => (c :: p.1, p.2) := by
  by_cases hq : c = '"'
  · subst hq
    simp [escape, readQuoted]
  by_cases hb : c = '\\'
  · subst hb
    simp [escape, readQuoted]
  by_cases hn : c = '\n'
  · subst hn
    simp [escape, readQuoted]
  · cases s with
    | nil => exact absurd rfl hs
    | cons c' s => simp [escape, readQuoted, hq, hb, hn]

@[simp] theorem readQuoted_escaped (text rest : List Char) :
    readQuoted (text.flatMap escape ++ '"' :: rest) = some (text, rest) := by
  induction text with
  | nil => exact readQuoted_quote rest
  | cons c text ih =>
      rw [List.flatMap_cons, List.append_assoc, readQuoted_escape c _ (by simp), ih]
      rfl

/-- What stands before the name of a table. -/
def nameOpen : List Char := "[keys.\"".toList

/-- What stands between the name of a table and its data. -/
def nameClose : List Char := "]\ntype = \"rsa\"\ndata = \"".toList

/-- The lines of a table. -/
def tableText (table : Table) : List Char :=
  nameOpen ++ (table.1.toList.flatMap escape ++ '"' :: (nameClose ++
    (table.2.data.toList.flatMap escape ++ '"' :: ['\n'])))

/-- The table at the front of a text. -/
def readTable (s : List Char) : Option (Table × List Char) := do
  let (name, s) ← readQuoted (s.drop nameOpen.length)
  let (data, s) ← readQuoted (s.drop nameClose.length)
  pure ((String.ofList name, { keyType := .rsa, data := String.ofList data }), s.drop 1)

theorem readTable_tableText (table : Table) (rest : List Char) :
    readTable (tableText table ++ rest) = some (table, rest) := by
  rcases table with ⟨name, ⟨⟨⟩, data⟩⟩
  have hopen (s : List Char) : (nameOpen ++ s).drop nameOpen.length = s := List.drop_left
  have hclose (s : List Char) : (nameClose ++ s).drop nameClose.length = s := List.drop_left
  simp only [readTable, tableText, List.append_assoc, List.cons_append, hopen,
    readQuoted_escaped, Option.bind_eq_bind, Option.bind_some, hclose]
  simp

/-- The tables of a text, at most `fuel` of them. -/
def readTables : Nat → List Char → Option (List Table)
  | _, [] => some []
  | 0, _ :: _ => none
  | fuel + 1, c :: s =>
      match readTable (c :: s) with
      | some (table, rest) => (readTables fuel rest).map (table :: ·)
      | none => none

theorem readTables_tableText (ts : List Table) {fuel : Nat} (h : ts.length ≤ fuel) :
    readTables fuel (ts.flatMap tableText) = some ts := by
  induction ts generalizing fuel with
  | nil => cases fuel <;> rfl
  | cons table ts ih =>
      obtain ⟨fuel, rfl⟩ : ∃ n, fuel = n + 1 := ⟨fuel - 1, by simp at h; omega⟩
      have hrest : readTables fuel (ts.flatMap tableText) = some ts := ih (by simpa using h)
      have htable := readTable_tableText table (ts.flatMap tableText)
      rw [List.flatMap_cons]
      obtain ⟨c, s, hs⟩ : ∃ c s, tableText table ++ ts.flatMap tableText = c :: s := ⟨_, _, rfl⟩
      rw [hs] at htable ⊢
      rw [readTables, htable]
      simp [hrest]

theorem length_le_length_flatMap_tableText (ts : List Table) :
    ts.length ≤ (ts.flatMap tableText).length := by
  induction ts with
  | nil => simp
  | cons table ts ih =>
      have hopen : 1 ≤ nameOpen.length := by decide
      have htable : nameOpen.length ≤ (tableText table).length := by
        rw [tableText, List.length_append]
        omega
      rw [List.flatMap_cons, List.length_append, List.length_cons]
      omega

/-- The text of a document without tables, in which the field `keys` is there all the same. -/
def noTables : List Char := "[keys]\n".toList

/-- A document. -/
def documentText (ts : List Table) : List Char :=
  if ts = [] then noTables else ts.flatMap tableText

/-- The tables of a document; the empty text is none, since the field `keys` is missing. -/
def readDocument (s : List Char) : Option (List Table) :=
  if s = [] then none
  else if s = noTables then some []
  else readTables s.length s

theorem readDocument_documentText (ts : List Table) :
    readDocument (documentText ts) = some ts := by
  rw [documentText]
  cases ts with
  | nil => decide
  | cons table ts =>
      -- a table opens with a dot where the document without tables has a bracket
      have hsixth : ((table :: ts).flatMap tableText)[5]? = some '.' := by
        rw [List.flatMap_cons, tableText, List.append_assoc, List.append_assoc]
        rfl
      have hempty : (table :: ts).flatMap tableText ≠ [] := by
        intro h
        rw [h] at hsixth
        cases hsixth
      have hnone : (table :: ts).flatMap tableText ≠ noTables := by
        intro h
        rw [h] at hsixth
        revert hsixth
        decide
      rw [if_neg (List.cons_ne_nil table ts), readDocument, if_neg hempty, if_neg hnone]
      exact readTables_tableText _ (length_le_length_flatMap_tableText _)

/-! ## The crates -/

/-- Textbook RSA, and documents as above. -/
def crates : Crates where
  pkeyFromRsa key := some key
  signerNew _ key := some fun msg =>
    some (BigEndian.toBytes (BigEndian.ofBytes msg ^ key.d.val % key.n.val))
  privateKeyToPem key := String.ofList (keyText key)
  privateKeyFromPem data := readKey data.toList
  toStringPretty ts := some (utf8 (String.ofList (documentText ts)))
  tables bytes := (fromUtf8 bytes).bind fun s => readDocument s.toList

theorem lawful : crates.Lawful where
  pem key := by
    show readKey (String.ofList (keyText key)).toList = some key
    rw [String.toList_ofList, readKey_keyText]
  toml ts bytes h := by
    have hbytes : bytes = utf8 (String.ofList (documentText ts)) := (Option.some.inj h).symm
    show (fromUtf8 bytes).bind _ = some ts
    rw [hbytes, fromUtf8_utf8, Option.bind_some, String.toList_ofList]
    exact readDocument_documentText ts

/-- The text of a configuration. -/
def textOf (keys : List KeyPair) : Bytes :=
  (crates.toStringPretty (serializeKeyPairs crates.toOpenssl keys)).getD []

theorem saved_textOf (keys : List KeyPair) : Saved crates keys (textOf keys) := rfl

end Reference

/-! ## Requests as a client writes them -/

/-- An integer without superfluous leading zeros; zero is the empty string. -/
def clientMpint (n : BigNum) : Bytes :=
  match n.toVec with
  | [] => writeString []
  | b :: bs => writeString (if b &&& 0x80 > 0 then 0 :: b :: bs else b :: bs)

/-- An `ADD_IDENTITY` request. -/
def addIdentityRequest (f : RsaFields) (name : String) : Bytes :=
  sshAgentcAddIdentity :: (writeString (utf8 "ssh-rsa") ++ clientMpint f.n ++ clientMpint f.e ++
    clientMpint f.d ++ clientMpint f.iqmp ++ clientMpint f.p ++ clientMpint f.q ++
    writeString (utf8 name))

/-- A `SIGN_REQUEST` for a signature of `msg`. -/
def signRequestMessage (blob msg : Bytes) (flags : Nat) : Bytes :=
  sshAgentcSignRequest :: (writeString blob ++ writeString msg ++ writeU32 flags)

end SshKeys
