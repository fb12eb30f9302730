import SshKeys.Key
import Mathlib.Data.List.Nodup

/-!
# The configuration file

Writing and reading the key list, after `key/ser.rs` and `config.rs`. The file holds one TOML table
for each key pair, under the pair's name. `Config.save` truncates the file before it serialises and
writes, so a failure after the truncation leaves the file with a prefix of the new text; which step
fails is the parameter `SaveFault`. `loadConfig` takes a missing file for an empty configuration.

The TOML crate is a parameter (`Toml`): its writer, and its reader up to the tables of the document.
Under the round trips of TOML and PEM (`Crates.Lawful`), a saved list is read back exactly when its
names are distinct (`loadConfig_saved`), because a document that defines a table twice is refused.
-/

set_option autoImplicit false

namespace SshKeys

open Lib

/-- The `type` of a table. -/
inductive KeyType where
  | rsa
  deriving DecidableEq

/-- The entries of a table. -/
structure KeyConfig where
  keyType : KeyType
  data : String
  deriving DecidableEq

/-- One table of the document: the name it stands under, and its entries. -/
abbrev Table := String × KeyConfig

/-- The TOML crate: its writer, and the tables of a document in their order. `none` is an error. -/
structure Toml where
  /-- `toml::to_string_pretty` -/
  toStringPretty : List Table → Option Bytes
  tables : Bytes → Option (List Table)

/-- `toml::from_slice`, which refuses a document that defines a table twice. -/
def Toml.fromSlice (toml : Toml) (bytes : Bytes) : Option (List Table) :=
  match toml.tables bytes with
  | some ts => if (ts.map Prod.fst).Nodup then some ts else none
  | none => none

/-- The crates that the program calls. -/
structure Crates extends Openssl, Toml

/-- What the program relies on: PEM text gives back its key, and a written document its tables. -/
structure Crates.Lawful (crates : Crates) : Prop where
  pem : ∀ key, crates.privateKeyFromPem (crates.privateKeyToPem key) = some key
  toml : ∀ ts bytes, crates.toStringPretty ts = some bytes → crates.tables bytes = some ts

/-- The table of a key pair. -/
def serializeKeyPair (ossl : Openssl) (keyPair : KeyPair) : Table :=
  match keyPair.privateKey with
  | .rsa rsa => (keyPair.name, { keyType := .rsa, data := ossl.privateKeyToPem rsa })

/-- A table for every key pair. No table is left out, also where two have one name. -/
def serializeKeyPairs (ossl : Openssl) (v : List KeyPair) : List Table :=
  v.map (serializeKeyPair ossl)

/-- The key pair of a table. -/
def deserializeKeyPair (ossl : Openssl) (table : Table) : Outcome Error KeyPair :=
  match table.2.keyType with
  | .rsa => do
      let rsa ← .ofOption (.new "invalid data") (ossl.privateKeyFromPem table.2.data)
      pure (KeyPair.new (.rsa rsa) table.1)

/-- The key pairs of the tables. The first table that has none fails all of them. -/
def deserializeKeyPairs (ossl : Openssl) : List Table → Outcome Error (List KeyPair)
  | [] => pure []
  | table :: map => do
      let keyPair ← deserializeKeyPair ossl table
      let v ← deserializeKeyPairs ossl map
      pure (keyPair :: v)

/-- The configuration is the list of the key pairs. -/
structure Config where
  keys : List KeyPair
  deriving DecidableEq

/-- `Config::default`. -/
def Config.default : Config := { keys := [] }

/-- The step of a save that fails, if one does. A full disk takes only the first `room` bytes. -/
inductive SaveFault where
  | none
  | create
  | write (room : Nat)
  deriving DecidableEq

/-- The file after a save, and what the save returned. `File::create` truncates the file before the
configuration is serialised. -/
def Config.save (crates : Crates) (fault : SaveFault) (config : Config) (file : Option Bytes) :
    Outcome Error Unit × Option Bytes :=
  match fault with
  | .create => (.err (.io .other), file)
  | _ =>
      -- the file is truncated by now, and stays empty if the serialiser fails
      match crates.toStringPretty (serializeKeyPairs crates.toOpenssl config.keys) with
      | Option.none => (.err (.crate "toml"), some [])
      | some bytes =>
          match fault with
          | .write room =>
              if room < bytes.length then (.err (.io .other), some (bytes.take room))
              else (.ok (), some bytes)
          | _ => (.ok (), some bytes)

/-- The step of a load that fails, if one does. -/
inductive LoadFault where
  | none
  | openFile
  | readToEnd
  deriving DecidableEq

/-- `load_config`, where the file has the content `file`, or is not there. -/
def loadConfig (crates : Crates) (fault : LoadFault) (file : Option Bytes) :
    Outcome Error Config :=
  match fault, file with
  | .openFile, _ => .err (.io .other)
  -- only `NotFound` stands for an empty configuration
  | _, Option.none => .ok Config.default
  | .readToEnd, some _ => .err (.io .other)
  | .none, some bytes => do
      let map ← .ofOption (.crate "toml") (crates.fromSlice bytes)
      let keys ← deserializeKeyPairs crates.toOpenssl map
      pure { keys }

/-- What a reload returned, and the configuration after it. -/
def Config.reload (crates : Crates) (fault : LoadFault) (file : Option Bytes) (config : Config) :
    Outcome Error Unit × Config :=
  match loadConfig crates fault file with
  | .ok config' => (.ok (), config')
  | .err e => (.err e, config)
  | .panic => (.panic, config)

/-! ## What is in the file -/

/-- The text that a successful save of `keys` writes is `bytes`. -/
def Saved (crates : Crates) (keys : List KeyPair) (bytes : Bytes) : Prop :=
  crates.toStringPretty (serializeKeyPairs crates.toOpenssl keys) = some bytes

/-- The public key of a table, if its data is a key. -/
def tableKey (ossl : Openssl) (table : Table) : Option PublicKey :=
  (ossl.privateKeyFromPem table.2.data).map fun rsa => (PrivateKey.rsa rsa).public

/-- The public keys that the file has tables for. -/
def fileKeys (crates : Crates) : Option Bytes → List PublicKey
  | some bytes =>
      match crates.tables bytes with
      | some ts => ts.filterMap (tableKey crates.toOpenssl)
      | none => []
  | none => []

theorem map_fst_serializeKeyPairs (ossl : Openssl) (keys : List KeyPair) :
    (serializeKeyPairs ossl keys).map Prod.fst = keys.map KeyPair.name := by
  rw [serializeKeyPairs, List.map_map]
  rfl

theorem map_publicKey_of_deserializeKeyPairs {ossl : Openssl} {ts : List Table}
    {keys : List KeyPair} (h : deserializeKeyPairs ossl ts = .ok keys) :
    ts.filterMap (tableKey ossl) = keys.map KeyPair.publicKey := by
  induction ts generalizing keys with
  | nil =>
      rw [deserializeKeyPairs, Outcome.pure_eq, Outcome.ok.injEq] at h
      rw [← h]
      rfl
  | cons table ts ih =>
      rw [deserializeKeyPairs, Outcome.bind_eq_ok_iff] at h
      obtain ⟨keyPair, hkey, h⟩ := h
      obtain ⟨keys', hkeys, h⟩ := Outcome.bind_eq_ok_iff.1 h
      rw [Outcome.pure_eq, Outcome.ok.injEq] at h
      have htable : tableKey ossl table = some keyPair.publicKey := by
        rcases table with ⟨name, ⟨⟨⟩, data⟩⟩
        rw [deserializeKeyPair, Outcome.bind_eq_ok_iff] at hkey
        obtain ⟨rsa, hrsa, hkey⟩ := hkey
        rw [Outcome.pure_eq, Outcome.ok.injEq] at hkey
        rw [tableKey, ← hkey]
        cases hp : ossl.privateKeyFromPem data with
        | none => simp [hp] at hrsa
        | some rsa' =>
            simp only [hp, Outcome.ofOption_some, Outcome.ok.injEq] at hrsa
            rw [Option.map_some, hrsa]
            rfl
      rw [List.filterMap_cons, htable, ← h, List.map_cons, ih hkeys]

/-- A load that succeeds in spite of a fault, which is one without a file, is as without it. -/
theorem loadConfig_of_fault {crates : Crates} {load : LoadFault} {file : Option Bytes}
    {config : Config} (h : loadConfig crates load file = .ok config) :
    loadConfig crates .none file = .ok config := by
  cases load with
  | none => exact h
  | openFile => cases h
  | readToEnd =>
      cases file with
      | none => exact h
      | some bytes => cases h

/-- A file that loads has tables for exactly the keys that are loaded. -/
theorem fileKeys_of_loadConfig {crates : Crates} {file : Option Bytes} {config : Config}
    (h : loadConfig crates .none file = .ok config) :
    fileKeys crates file = config.keys.map KeyPair.publicKey := by
  cases file with
  | none =>
      rw [loadConfig, Outcome.ok.injEq] at h
      · rw [← h]
        rfl
      · simp
  | some bytes =>
      simp only [loadConfig, Toml.fromSlice] at h
      cases hts : crates.tables bytes with
      | none => simp [hts] at h
      | some ts =>
          by_cases hn : (ts.map Prod.fst).Nodup
          · simp only [hts, if_pos hn, Outcome.ofOption_some, Outcome.ok_bind] at h
            obtain ⟨keys, hkeys, h⟩ := Outcome.bind_eq_ok_iff.1 h
            rw [Outcome.pure_eq, Outcome.ok.injEq] at h
            simp only [fileKeys, hts, ← h]
            exact map_publicKey_of_deserializeKeyPairs hkeys
          · simp [hts, hn] at h

/-- A successful save leaves the text of the configuration in the file. -/
theorem saved_of_save {crates : Crates} {fault : SaveFault} {config : Config}
    {file : Option Bytes} (h : (Config.save crates fault config file).1 = .ok ()) :
    ∃ bytes, (Config.save crates fault config file).2 = some bytes ∧
      Saved crates config.keys bytes := by
  unfold Config.save at h ⊢
  cases fault with
  | create => simp at h
  | none =>
      cases hb : crates.toStringPretty (serializeKeyPairs crates.toOpenssl config.keys) with
      | none => simp [hb] at h
      | some bytes => exact ⟨bytes, rfl, hb⟩
  | write room =>
      cases hb : crates.toStringPretty (serializeKeyPairs crates.toOpenssl config.keys) with
      | none => simp [hb] at h
      | some bytes =>
          by_cases hroom : room < bytes.length
          · simp [hb, hroom] at h
          · simp only [if_neg hroom]
            exact ⟨bytes, rfl, hb⟩

section Lawful

variable {crates : Crates} (hl : crates.Lawful)

include hl

theorem deserializeKeyPair_serializeKeyPair (keyPair : KeyPair) :
    deserializeKeyPair crates.toOpenssl (serializeKeyPair crates.toOpenssl keyPair) =
      .ok keyPair := by
  rcases keyPair with ⟨⟨rsa⟩, publicKey, name, rfl⟩
  simp only [serializeKeyPair, deserializeKeyPair, hl.pem, Outcome.ofOption_some,
    Outcome.ok_bind, Outcome.pure_eq]
  rfl

theorem deserializeKeyPairs_serializeKeyPairs (keys : List KeyPair) :
    deserializeKeyPairs crates.toOpenssl (serializeKeyPairs crates.toOpenssl keys) =
      .ok keys := by
  induction keys with
  | nil => rfl
  | cons keyPair keys ih =>
      rw [serializeKeyPairs] at ih
      rw [serializeKeyPairs, List.map_cons, deserializeKeyPairs,
        deserializeKeyPair_serializeKeyPair hl, ih]
      rfl

/-- **A saved list is read back exactly when its names are distinct**; otherwise the load fails. -/
theorem loadConfig_saved {keys : List KeyPair} {bytes : Bytes} (h : Saved crates keys bytes) :
    loadConfig crates .none (some bytes) =
      if (keys.map KeyPair.name).Nodup then .ok { keys } else .err (.crate "toml") := by
  have htables : crates.tables bytes = some (serializeKeyPairs crates.toOpenssl keys) :=
    hl.toml _ _ h
  by_cases hn : (keys.map KeyPair.name).Nodup
  · simp [loadConfig, Toml.fromSlice, htables, map_fst_serializeKeyPairs, hn,
      deserializeKeyPairs_serializeKeyPairs hl]
  · simp [loadConfig, Toml.fromSlice, htables, map_fst_serializeKeyPairs, hn]

theorem tableKey_serializeKeyPair (keyPair : KeyPair) :
    tableKey crates.toOpenssl (serializeKeyPair crates.toOpenssl keyPair) =
      some keyPair.publicKey := by
  rcases keyPair with ⟨⟨rsa⟩, publicKey, name, rfl⟩
  simp [serializeKeyPair, tableKey, hl.pem]

/-- The file that a save wrote has tables for exactly the saved keys, in their order. -/
theorem fileKeys_saved {keys : List KeyPair} {bytes : Bytes} (h : Saved crates keys bytes) :
    fileKeys crates (some bytes) = keys.map KeyPair.publicKey := by
  have htables : crates.tables bytes = some (serializeKeyPairs crates.toOpenssl keys) :=
    hl.toml _ _ h
  have hkey : tableKey crates.toOpenssl ∘ serializeKeyPair crates.toOpenssl =
      fun keyPair => some keyPair.publicKey := by
    funext keyPair
    exact tableKey_serializeKeyPair hl keyPair
  simp only [fileKeys, htables]
  rw [serializeKeyPairs, List.filterMap_map, hkey, ← List.filterMap_eq_map]
  rfl

end Lawful

end SshKeys
