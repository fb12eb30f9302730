import SshKeys.CopyId
import SshKeys.Lib.Lines

/-!
# The arguments of copy-id

The command line of `copy-id` as `main.rs` declares it, and what `copy_id` does with it before it
connects to the server, after `copy_id.rs`. The parser of command lines is a parameter (`Clap`), of
which `Clap.Lawful` says what the program relies on.

`copyIdTarget_eq_ok_iff` and `copyIdTarget_eq_panic_iff` say what `copy_id` makes of any matches.
The target is declared under the name `username@host` and looked up under the name `host`, so
`connects_as_told_iff` is about the command lines that name no key of the agent.
-/

set_option autoImplicit false

namespace SshKeys

open Lib

/-! ## Command lines -/

/-- An argument that is declared for a command. One without `short` is known by its position; one
with `short` takes a value if it has a default, and is a flag if not. -/
structure Arg where
  name : String
  required : Bool := false
  short : Option Char := none
  defaultValue : Option String := none

/-- What a parsed command line says about a name. -/
structure ArgMatches where
  valueOf : String → Option String
  isPresent : String → Bool

/-- The clap crate: the matches of a command line with the declared arguments. `none` is a command
line that is not accepted, for which the process ends with a message. -/
structure Clap where
  getMatches : List Arg → List String → Option ArgMatches

/-- What the program relies on. -/
structure Clap.Lawful (clap : Clap) : Prop where
  required : ∀ args argv opts, clap.getMatches args argv = some opts →
    ∀ arg ∈ args, arg.required = true → (opts.valueOf arg.name).isSome
  default : ∀ args argv opts, clap.getMatches args argv = some opts →
    ∀ arg ∈ args, arg.defaultValue.isSome → (opts.valueOf arg.name).isSome
  undeclared : ∀ args argv opts, clap.getMatches args argv = some opts →
    ∀ name ∉ args.map Arg.name, opts.valueOf name = none

/-- The arguments that `main` declares for `copy-id`. -/
def copyIdApp : List Arg :=
  [{ name := "username@host", required := true },
    { name := "key", required := true },
    { name := "port", short := some 'p', defaultValue := some "22" },
    { name := "erase", short := some 'e' }]

/-! ## What copy-id makes of them -/

/-- `str::parse::<u16>`: digits with a plus sign or without, of a value that fits. -/
def parseU16 (s : String) : Option UInt16 :=
  let digits := if s.toList.head? = some '+' then s.toList.tail else s.toList
  if digits ≠ [] ∧ digits.all Char.isDigit then
    let value := digits.foldl (fun n c => n * 10 + (c.toNat - '0'.toNat)) 0
    if value < 2 ^ 16 then some (UInt16.ofNat value) else none
  else none

/-- The key that is copied, the address that is connected to and the name that is logged in with. -/
structure CopyTarget where
  key : KeyPair
  user : String
  host : String
  port : UInt16
  deriving DecidableEq

/-- `Option::unwrap`. -/
def unwrap {α : Type} : Option α → Outcome Error α
  | some a => .ok a
  | none => .panic

/-- The user and the host of a target. -/
def splitHost (target : String) : Outcome Error (String × String) :=
  match target.toList.splitOn '@' with
  | [user, host] => .ok (String.ofList user, String.ofList host)
  | _ => .err (.new "invalid host")

/-- The beginning of `copy_id`, up to `TcpStream::connect`. `sessionNew` is the result of
`Session::new`. -/
def copyIdTarget (keys : List KeyPair) (sessionNew : Option Unit) (opts : ArgMatches) :
    Outcome Error CopyTarget := do
  let keyName ← unwrap (opts.valueOf "key")
  let key ← .ofOption (.new "key not found") (keys.find? fun k => k.name = keyName)
  let target ← unwrap (opts.valueOf "host")
  let (user, host) ← splitHost target
  let _ ← .ofOption (.crate "ssh2") sessionNew
  let port ← unwrap (opts.valueOf "port")
  let port ← .ofOption (.wrap "invalid port" (.crate "std")) (parseU16 port)
  pure { key, user, host, port }

/-- `copy_id`. `remote` connects to the server, logs in and opens `authorized_keys`. -/
def copyId (keys : List KeyPair) (sessionNew : Option Unit)
    (remote : CopyTarget → Outcome Error (Option Bytes)) (opts : ArgMatches) :
    Outcome Error (Copied × Bytes) := do
  let target ← copyIdTarget keys sessionNew opts
  let old ← remote target
  updateAuthorizedKeys (opts.isPresent "erase") target.key old

/-! ## Targets -/

/-- The text has one `@`, between the user and the host. -/
def IsTarget (target user host : String) : Prop :=
  target = user ++ "@" ++ host ∧ '@' ∉ user.toList ∧ '@' ∉ host.toList

theorem splitHost_eq_ok_iff {target user host : String} :
    splitHost target = .ok (user, host) ↔ IsTarget target user host := by
  have htext : target = user ++ "@" ++ host ↔
      target.toList = user.toList ++ '@' :: host.toList := by
    rw [← String.toList_inj, String.toList_append, String.toList_append, List.append_assoc]
    rfl
  have hok : splitHost target = .ok (user, host) ↔
      target.toList.splitOn '@' = [user.toList, host.toList] := by
    rw [splitHost]
    split
    · next left right hsplit =>
        rw [hsplit]
        constructor
        · rintro ⟨⟩
          rw [String.toList_ofList, String.toList_ofList]
        · intro h
          cases h
          rw [String.ofList_toList, String.ofList_toList]
    · next hsplit => exact iff_of_false (by simp) (hsplit _ _)
  rw [hok, IsTarget, htext, Lines.splitOn_eq_pair_iff]

theorem splitHost_ne_panic (target : String) : splitHost target ≠ .panic := by
  rw [splitHost]
  split <;> simp

@[simp] theorem unwrap_eq_ok_iff {α : Type} {o : Option α} {a : α} :
    unwrap o = .ok a ↔ o = some a := by
  cases o <;> simp [unwrap]

@[simp] theorem unwrap_eq_panic_iff {α : Type} {o : Option α} : unwrap o = .panic ↔ o = none := by
  cases o <;> simp [unwrap]

/-- **Connecting.** The matches of any parser lead to a connection exactly when they name a stored
key, a target and a port. -/
theorem copyIdTarget_eq_ok_iff {keys : List KeyPair} {sessionNew : Option Unit} {opts : ArgMatches}
    {t : CopyTarget} :
    copyIdTarget keys sessionNew opts = .ok t ↔
      ∃ keyName target port, opts.valueOf "key" = some keyName ∧
        keys.find? (fun k => k.name = keyName) = some t.key ∧
        opts.valueOf "host" = some target ∧ IsTarget target t.user t.host ∧
        sessionNew = some () ∧ opts.valueOf "port" = some port ∧ parseU16 port = some t.port := by
  simp only [copyIdTarget, Outcome.bind_eq_ok_iff, unwrap_eq_ok_iff, Outcome.ofOption_eq_ok_iff,
    Prod.exists, splitHost_eq_ok_iff, Outcome.pure_eq, Outcome.ok.injEq]
  constructor
  · rintro ⟨keyName, hname, key, hkey, target, htarget, user, host, hsplit, ⟨⟩, hsession, port,
      hport, value, hvalue, rfl⟩
    exact ⟨keyName, target, port, hname, hkey, htarget, hsplit, hsession, hport, hvalue⟩
  · rintro ⟨keyName, target, port, hname, hkey, htarget, hsplit, hsession, hport, hvalue⟩
    exact ⟨keyName, hname, t.key, hkey, target, htarget, t.user, t.host, hsplit, (), hsession, port,
      hport, t.port, hvalue, rfl⟩

/-- **Panicking.** `copy_id` panics before it connects exactly when it looks for a value that the
matches do not have: no key name, no target for a stored key, or no port for a target. -/
theorem copyIdTarget_eq_panic_iff {keys : List KeyPair} {sessionNew : Option Unit}
    {opts : ArgMatches} :
    copyIdTarget keys sessionNew opts = .panic ↔
      opts.valueOf "key" = none ∨
      ∃ keyName, opts.valueOf "key" = some keyName ∧
        ∃ key, keys.find? (fun k => k.name = keyName) = some key ∧
          (opts.valueOf "host" = none ∨
            ∃ target, opts.valueOf "host" = some target ∧ ∃ user host,
              IsTarget target user host ∧ ∃ session, sessionNew = some session ∧
                opts.valueOf "port" = none) := by
  simp only [copyIdTarget, Outcome.bind_eq_panic_iff, unwrap_eq_panic_iff, unwrap_eq_ok_iff,
    Outcome.ofOption_eq_ok_iff, Outcome.ofOption_ne_panic, splitHost_ne_panic, splitHost_eq_ok_iff,
    Prod.exists, Outcome.pure_eq, reduceCtorEq, false_or, and_false, exists_false, or_false]

/-! ## What was asked for -/

/-- The words of a command line as the user means them: a key, a target and a port. Without all
three being usable nothing is done over the network; otherwise the connection goes to the host and
the port of the target, and the login uses its user. -/
structure AsTold (keys : List KeyPair) (sessionNew : Option Unit) (opts : ArgMatches)
    (keyName target port : String) : Prop where
  refuses : (∀ keyPair ∈ keys, keyPair.name ≠ keyName) ∨
      (∀ user host, ¬ IsTarget target user host) ∨ parseU16 port = none →
    ∀ remote, ∃ e, copyId keys sessionNew remote opts = .err e
  connects : ∀ key user host portNumber, keys.find? (fun k => k.name = keyName) = some key →
    IsTarget target user host → parseU16 port = some portNumber →
    ∀ remote, copyId keys sessionNew remote opts =
      (.ofOption (.crate "ssh2") sessionNew >>= fun _ =>
        remote { key, user, host, port := portNumber } >>= fun old =>
          updateAuthorizedKeys (opts.isPresent "erase") key old)

/-- Over a network without a server, what was asked for ends with an error. -/
theorem AsTold.ne_panic {keys : List KeyPair} {sessionNew : Option Unit} {opts : ArgMatches}
    {keyName target port : String} (h : AsTold keys sessionNew opts keyName target port)
    (e : Error) : copyId keys sessionNew (fun _ => .err e) opts ≠ .panic := by
  have hrefused (hbad : (∀ keyPair ∈ keys, keyPair.name ≠ keyName) ∨
      (∀ user host, ¬ IsTarget target user host) ∨ parseU16 port = none) :
      copyId keys sessionNew (fun _ => .err e) opts ≠ .panic := by
    obtain ⟨e', he'⟩ := h.refuses hbad fun _ => .err e
    simp [he']
  cases hfind : keys.find? (fun k => k.name = keyName) with
  | none =>
      apply hrefused
      left
      intro keyPair hmem
      simpa using List.find?_eq_none.1 hfind keyPair hmem
  | some key =>
      by_cases htarget : ∃ user host, IsTarget target user host
      · obtain ⟨user, host, hsplit⟩ := htarget
        cases hport : parseU16 port with
        | none => exact hrefused (Or.inr (Or.inr hport))
        | some portNumber =>
            rw [h.connects key user host portNumber hfind hsplit hport]
            cases sessionNew <;> simp
      · apply hrefused
        right
        left
        intro user host hsplit
        exact htarget ⟨user, host, hsplit⟩

/-- `copy_id` does what an accepted command line asks for, under the declared names. -/
def ConnectsAsTold (keys : List KeyPair) (sessionNew : Option Unit) (opts : ArgMatches) : Prop :=
  ∃ keyName target port, opts.valueOf "key" = some keyName ∧
    opts.valueOf "username@host" = some target ∧ opts.valueOf "port" = some port ∧
    AsTold keys sessionNew opts keyName target port

/-- An accepted command line has a value for each of the names that it must have. -/
theorem Clap.Lawful.exists_values {clap : Clap} (hclap : clap.Lawful) {argv : List String}
    {opts : ArgMatches} (hopts : clap.getMatches copyIdApp argv = some opts) :
    ∃ keyName target port, opts.valueOf "key" = some keyName ∧
      opts.valueOf "username@host" = some target ∧ opts.valueOf "port" = some port := by
  have htarget : (opts.valueOf "username@host").isSome :=
    hclap.required _ _ _ hopts { name := "username@host", required := true } (by simp [copyIdApp])
      rfl
  have hkey : (opts.valueOf "key").isSome :=
    hclap.required _ _ _ hopts { name := "key", required := true } (by simp [copyIdApp]) rfl
  have hport : (opts.valueOf "port").isSome :=
    hclap.default _ _ _ hopts { name := "port", short := some 'p', defaultValue := some "22" }
      (by simp [copyIdApp]) rfl
  exact ⟨_, _, _, Option.eq_some_of_isSome hkey, Option.eq_some_of_isSome htarget,
    Option.eq_some_of_isSome hport⟩

theorem copyId_of_key_not_found {keys : List KeyPair} {sessionNew : Option Unit}
    {opts : ArgMatches} {keyName : String} (hname : opts.valueOf "key" = some keyName)
    (h : ∀ keyPair ∈ keys, keyPair.name ≠ keyName)
    (remote : CopyTarget → Outcome Error (Option Bytes)) :
    copyId keys sessionNew remote opts = .err (.new "key not found") := by
  have hfind : keys.find? (fun k => k.name = keyName) = none := by
    rw [List.find?_eq_none]
    intro keyPair hkeyPair
    simpa using h keyPair hkeyPair
  rw [copyId, copyIdTarget, hname]
  simp [unwrap, hfind]

/-- A stored key and no value under the name `host` are a panic. -/
theorem copyId_of_no_host {keys : List KeyPair} {sessionNew : Option Unit} {opts : ArgMatches}
    {keyName : String} (hname : opts.valueOf "key" = some keyName) {keyPair : KeyPair}
    (hmem : keyPair ∈ keys) (hkey : keyPair.name = keyName) (hhost : opts.valueOf "host" = none)
    (remote : CopyTarget → Outcome Error (Option Bytes)) :
    copyId keys sessionNew remote opts = .panic := by
  have hfound : ∃ key, keys.find? (fun k => k.name = keyName) = some key := by
    rw [← Option.isSome_iff_exists, List.find?_isSome]
    exact ⟨keyPair, hmem, by simpa using hkey⟩
  obtain ⟨key, hfind⟩ := hfound
  have hpanic : copyIdTarget keys sessionNew opts = .panic :=
    copyIdTarget_eq_panic_iff.2 (Or.inr ⟨keyName, hname, key, hfind, Or.inl hhost⟩)
  rw [copyId, hpanic, Outcome.panic_bind]

/-- **Connecting as told.** `copy_id` does what an accepted command line asks for exactly when the
agent holds no key with the given name: the name under which it looks for the target was never
declared. -/
theorem connects_as_told_iff {clap : Clap} (hclap : clap.Lawful) (keys : List KeyPair)
    (sessionNew : Option Unit) {argv : List String} {opts : ArgMatches}
    (hopts : clap.getMatches copyIdApp argv = some opts) :
    ConnectsAsTold keys sessionNew opts ↔
      ∀ keyPair ∈ keys, opts.valueOf "key" ≠ some keyPair.name := by
  obtain ⟨keyName, target, port, hname, htarget, hport⟩ := hclap.exists_values hopts
  have hhost : opts.valueOf "host" = none := by
    apply hclap.undeclared _ _ _ hopts
    decide
  constructor
  · rintro ⟨keyName', target', port', hname', htarget', hport', htold⟩ keyPair hmem hkey
    rw [hname', Option.some.injEq] at hkey
    apply htold.ne_panic .fromUtf8
    exact copyId_of_no_host hname' hmem hkey.symm hhost _
  · intro h
    have hnone : ∀ keyPair ∈ keys, keyPair.name ≠ keyName := by
      rintro keyPair hmem rfl
      exact h keyPair hmem hname
    refine ⟨keyName, target, port, hname, htarget, hport, ?_, ?_⟩
    · intro _ remote
      exact ⟨_, copyId_of_key_not_found hname hnone remote⟩
    · intro key user host portNumber hfind
      have hkey : key.name = keyName := by simpa using List.find?_some hfind
      exact absurd hkey (hnone key (List.mem_of_find?_eq_some hfind))

namespace Reference

/-- The words of a command line without options, one for each argument known by its position. -/
def positionals (args : List Arg) : List String :=
  (args.filter fun arg => arg.short.isNone).map Arg.name

/-- A parser of command lines without options, which have a word for each position. -/
def clap : Clap where
  getMatches args argv :=
    if argv.length = (positionals args).length ∧ ∀ arg ∈ args, arg.required = true →
        arg.short = none then
      let valueOf := fun name =>
        (((positionals args).zip argv).lookup name).or
          (args.findSome? fun arg => if arg.name = name then arg.defaultValue else none)
      some { valueOf, isPresent := fun name => (valueOf name).isSome }
    else none

theorem lawful_clap : clap.Lawful := by
  have hok {args : List Arg} {argv : List String} {opts : ArgMatches}
      (h : clap.getMatches args argv = some opts) :
      argv.length = (positionals args).length ∧
        (∀ arg ∈ args, arg.required = true → arg.short = none) ∧
        ∀ name, opts.valueOf name = (((positionals args).zip argv).lookup name).or
          (args.findSome? fun arg => if arg.name = name then arg.defaultValue else none) := by
    simp only [clap, Option.ite_none_right_eq_some, Option.some.injEq] at h
    obtain ⟨⟨hlength, hrequired⟩, rfl⟩ := h
    exact ⟨hlength, hrequired, fun name => rfl⟩
  constructor
  · intro args argv opts h arg harg hreq
    obtain ⟨hlength, hrequired, hvalue⟩ := hok h
    have hname : arg.name ∈ positionals args := by
      refine List.mem_map_of_mem (List.mem_filter.2 ⟨harg, ?_⟩)
      rw [hrequired arg harg hreq]
      rfl
    -- each position has a word
    rw [← List.map_fst_zip (Nat.le_of_eq hlength.symm), List.mem_map] at hname
    obtain ⟨pair, hpair, hfst⟩ := hname
    have hlookup : (((positionals args).zip argv).lookup arg.name).isSome :=
      List.lookup_isSome_iff.2 ⟨pair, hpair, beq_iff_eq.2 hfst.symm⟩
    rw [hvalue, Option.isSome_or, hlookup, Bool.true_or]
  · intro args argv opts h arg harg hdefault
    obtain ⟨-, -, hvalue⟩ := hok h
    have hfound : (args.findSome? fun arg' =>
        if arg'.name = arg.name then arg'.defaultValue else none).isSome := by
      rw [List.findSome?_isSome_iff]
      exact ⟨arg, harg, by rwa [if_pos rfl]⟩
    rw [hvalue, Option.isSome_or, hfound, Bool.or_true]
  · intro args argv opts h name hname
    obtain ⟨-, -, hvalue⟩ := hok h
    rw [hvalue, Option.or_eq_none_iff, List.lookup_eq_none_iff, List.findSome?_eq_none_iff]
    constructor
    · intro pair hpair
      rw [bne_iff_ne]
      rintro rfl
      obtain ⟨arg, harg, heq⟩ := List.mem_map.1 (List.of_mem_zip hpair).1
      exact hname (List.mem_map.2 ⟨arg, (List.mem_filter.1 harg).1, heq⟩)
    · intro arg harg
      rw [if_neg]
      intro heq
      exact hname (List.mem_map.2 ⟨arg, harg, heq⟩)

end Reference

/-- With a stored key an accepted command line is a panic, and with another name an error. -/
theorem connects_as_told_iff_small :
    ∃ opts, Reference.clap.getMatches copyIdApp ["user@host", "b"] = some opts ∧
      (ConnectsAsTold [smallPair smallKey "a"] (some ()) opts ↔
        ∀ keyPair ∈ [smallPair smallKey "a"], opts.valueOf "key" ≠ some keyPair.name) := by
  have hopts : Reference.clap.getMatches copyIdApp ["user@host", "b"] = some _ := rfl
  exact ⟨_, hopts, connects_as_told_iff Reference.lawful_clap _ _ hopts⟩

/-- The key is stored and the target is complete, and `copy_id` panics. -/
theorem stored_key_panics :
    ∃ opts, Reference.clap.getMatches copyIdApp ["user@host", "a"] = some opts ∧
      (∀ remote, copyId [smallPair smallKey "a"] (some ()) remote opts = .panic) ∧
      ¬ ConnectsAsTold [smallPair smallKey "a"] (some ()) opts := by
  have hname : (smallPair smallKey "a").name = "a" := rfl
  refine ⟨_, rfl, ?_, ?_⟩
  · intro remote
    exact copyId_of_no_host rfl List.mem_cons_self hname rfl remote
  · rintro ⟨keyName, target, port, hkey, -, -, htold⟩
    have hgiven : some "a" = some keyName := hkey
    apply htold.ne_panic .fromUtf8
    exact copyId_of_no_host hkey List.mem_cons_self (Option.some.inj hgiven) rfl _

end SshKeys
