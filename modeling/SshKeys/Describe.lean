import SshKeys.Panic
import SshKeys.Requester
import SshKeys.Lib.Lines
import SshKeys.Lib.Transition
import SshKeys.Lib.Utf16

/-!
# Describing a client

The texts of a description, after `process_describers` and the functions of `platform/win/utils.rs`
that they call. The system gives its texts as code units, and each of them is unwrapped as text. The
listeners describe a client under the mutex of the agent, so a description that panics poisons it,
and one that does not come to its end keeps it.

`described_client` says what the description of a client tells, and `agent_stays_usable_iff` which
clients the agent outlives.
-/

set_option autoImplicit false

namespace SshKeys

open Lib

/-! ## The texts of the system -/

/-- The version resource of an executable. -/
structure VersionInfo where
  /-- The double word at `\VarFileInfo\Translation`. -/
  translation : Option UInt32
  /-- `VerQueryValueW`: the code units from the value on. -/
  verQueryValue : String → Option (List UInt16)

/-- The system with the texts that it has about its processes. -/
structure Desktop extends Windows where
  /-- `GetModuleFileNameExW`. No code units stand for an error. -/
  moduleFileName : Pid → List UInt16
  /-- `Path::file_name` -/
  fileName : String → Option String
  /-- `GetFileVersionInfoW`, by the path of the executable. -/
  versionInfo : String → Option VersionInfo
  /-- `GetWindowTextW` -/
  windowText : Window → List UInt16
  /-- The command line, if the memory of the process can be read. -/
  commandLine : Pid → Option (List UInt16)

/-- `String::from_utf16`, unwrapped. -/
def fromUtf16 {ε : Type} (units : List UInt16) : Outcome ε String :=
  match Utf16.decode units with
  | some chars => .ok (String.ofList chars)
  | none => .panic

/-- `if let Ok(a)`: the value of a call whose error is ignored. -/
def ifOk {α : Type} : Outcome Unit α → Outcome Error (Option α)
  | .ok a => .ok (some a)
  | .err () => .ok none
  | .panic => .panic

/-- `{:0>4x}` -/
def hex4 (n : UInt32) : String := String.ofList ((Nat.toDigits 16 n.toNat).leftpad 4 '0')

/-- The path of the description in the version information, for a language and a code page. -/
def descriptionQuery (langId codePage : UInt32) : String :=
  "\\StringFileInfo\\" ++ hex4 langId ++ hex4 codePage ++ "\\FileDescription"

namespace Desktop

variable (sys : Desktop)

/-- The path of the executable, as text. A process that cannot be opened has none. -/
def getExecutableFromPid (pid : Pid) : Outcome Error String :=
  match sys.openProcess pid with
  | none => .err (.new "OpenProcess")
  | some _ =>
      if sys.moduleFileName pid = [] then .err (.new "GetModuleFileNameExW")
      else fromUtf16 (sys.moduleFileName pid)

/-- `exe.file_name().unwrap()` -/
def unwrapFileName (exe : String) : Outcome Error String :=
  match sys.fileName exe with
  | some fileName => .ok fileName
  | none => .panic

/-- The code units of the description up to the zero at their end. -/
def descriptionUnits (exe : String) : Option (List UInt16) := do
  let data ← sys.versionInfo exe
  let language ← data.translation
  let langId := language &&& 0xffff
  let codePage := language >>> 16 &&& 0xffff
  let value ← data.verQueryValue (descriptionQuery langId codePage)
  pure (value.takeWhile (· ≠ 0))

/-- The description of an executable, as text, where it has one. -/
def getExecutableDescription (exe : String) : Outcome Unit String := do
  let data ← Outcome.ofOption () (sys.descriptionUnits exe)
  fromUtf16 data

/-- The title of a window, as text. An empty title is none. -/
def getWindowText (win : Window) : Outcome Unit String :=
  if sys.windowText win = [] then .err () else fromUtf16 (sys.windowText win)

/-- The command line of a process, as text, where it can be read. -/
def getProcessCommandLine (pid : Pid) : Outcome Unit String := do
  let buffer ← Outcome.ofOption () (sys.commandLine pid)
  fromUtf16 buffer

/-- What follows the name of the executable in the name of a process. -/
def suffix (text : Option String) : String :=
  match text with
  | some text => " - " ++ text
  | none => ""

/-- `describe` of `process_describers/default.rs`: the short description and the long one. -/
def defaultDescribe (pid : Pid) (window : Option Window) : Outcome Error (String × String) := do
  let exe ← (sys.getExecutableFromPid pid).mapErr
    (.wrap ("get_executable_from_pid pid=" ++ toString pid))
  let fileName ← sys.unwrapFileName exe
  let description ← ifOk (sys.getExecutableDescription exe)
  let text ← ifOk (Outcome.ofOption () window >>= sys.getWindowText)
  let processName := fileName ++ suffix description ++ suffix text
  let commandLine ← ifOk (sys.getProcessCommandLine pid)
  pure (processName, processName ++ " : " ++ commandLine.getD exe)

/-- `describe` of `process_describers/mod.rs` -/
def describe (pid : Pid) (window : Option Window) : Outcome Error (String × String) := do
  let exe ← sys.getExecutableFromPid pid
  let _ ← sys.unwrapFileName exe
  let (short, long) ← sys.defaultDescribe pid window
  pure (short, toString pid ++ " : " ++ long)

end Desktop

/-! ## One process -/

/-- The code units are those of a text. -/
def IsText (units : List UInt16) : Prop := ∃ chars, units = Utf16.encode chars

namespace Desktop

variable (sys : Desktop)

/-- The process can be opened, and the system has a path for its executable. -/
def Opens (pid : Pid) : Prop := sys.openProcess pid ≠ none ∧ sys.moduleFileName pid ≠ []

instance : DecidablePred sys.Opens := fun pid =>
  inferInstanceAs (Decidable (sys.openProcess pid ≠ none ∧ sys.moduleFileName pid ≠ []))

/-- The code units that a description unwraps besides the path. -/
def units (exe : String) (pid : Pid) (window : Option Window) : List (List UInt16) :=
  (sys.descriptionUnits exe).toList ++ (window.map sys.windowText).toList ++
    (sys.commandLine pid).toList

/-- All that is said about the process is text, and its path ends with the name of a file. -/
def WellFormed (pid : Pid) (window : Option Window) : Prop :=
  ∃ exe, sys.moduleFileName pid = Utf16.encode exe ∧ sys.fileName (String.ofList exe) ≠ none ∧
    ∀ units ∈ sys.units (String.ofList exe) pid window, IsText units

end Desktop

theorem panicsUnless_fromUtf16 (ε : Type) (units : List UInt16) :
    (fromUtf16 units : Outcome ε String).PanicsUnless (IsText units) := by
  rw [fromUtf16]
  cases hunits : Utf16.decode units with
  | some chars => exact Or.inl ⟨⟨chars, Utf16.decode_eq_some_iff.1 hunits⟩, _, rfl⟩
  | none =>
      refine Or.inr ⟨?_, rfl⟩
      rintro ⟨chars, rfl⟩
      rw [Utf16.decode_encode] at hunits
      cases hunits

theorem panicsUnless_unwrapFileName (sys : Desktop) (exe : String) :
    (sys.unwrapFileName exe).PanicsUnless (sys.fileName exe ≠ none) := by
  rw [Desktop.unwrapFileName]
  cases sys.fileName exe with
  | none => exact Or.inr ⟨fun h => h rfl, rfl⟩
  | some fileName => exact Or.inl ⟨by simp, fileName, rfl⟩

/-- A text that may be missing has to be text if it is there. -/
theorem panicsUnless_ifOk (units : Option (List UInt16)) :
    (ifOk (Outcome.ofOption () units >>= fromUtf16)).PanicsUnless (∀ u ∈ units, IsText u) := by
  cases units with
  | none => exact Or.inl ⟨by simp, none, rfl⟩
  | some u =>
      rw [Outcome.ofOption_some, Outcome.ok_bind]
      rcases panicsUnless_fromUtf16 Unit u with ⟨hu, text, htext⟩ | ⟨hu, hpanic⟩
      · rw [htext]
        exact Or.inl ⟨by simpa using hu, some text, rfl⟩
      · rw [hpanic]
        exact Or.inr ⟨by simpa using hu, rfl⟩

section Process

variable (sys : Desktop) (pid : Pid) (window : Option Window)

/-- The title of a window, in the form of the other texts. -/
theorem getWindowText_eq (win : Window) :
    sys.getWindowText win =
      Outcome.ofOption () (if sys.windowText win = [] then none else some (sys.windowText win)) >>=
        fromUtf16 := by
  rw [Desktop.getWindowText]
  split
  · rfl
  · rfl

theorem panicsUnless_windowText :
    (ifOk (Outcome.ofOption () window >>= sys.getWindowText)).PanicsUnless
      (∀ u ∈ window.map sys.windowText, IsText u) := by
  cases window with
  | none => exact Or.inl ⟨by simp, none, rfl⟩
  | some win =>
      rw [Outcome.ofOption_some, Outcome.ok_bind, getWindowText_eq]
      refine (panicsUnless_ifOk _).congr ?_
      by_cases h : sys.windowText win = []
      -- no title at all is text
      · have hnil : IsText [] := ⟨[], rfl⟩
        simp [h, hnil]
      · simp [h]

/-- Behind the path, a description needs the name of the file and its three texts. -/
theorem panicsUnless_texts {exe : String} (hexe : sys.getExecutableFromPid pid = .ok exe) :
    (sys.defaultDescribe pid window).PanicsUnless (sys.fileName exe ≠ none ∧
      ∀ u ∈ sys.units exe pid window, IsText u) := by
  have hthree : (∀ u ∈ sys.units exe pid window, IsText u) ↔
      (∀ u ∈ sys.descriptionUnits exe, IsText u) ∧
        (∀ u ∈ window.map sys.windowText, IsText u) ∧
          (∀ u ∈ sys.commandLine pid, IsText u) ∧ True := by
    simp only [Desktop.units, List.mem_append, Option.mem_toList, Option.mem_def, or_imp,
      forall_and, and_true, and_assoc]
  rw [hthree, Desktop.defaultDescribe, hexe, Outcome.mapErr_ok, Outcome.ok_bind]
  apply (panicsUnless_unwrapFileName sys _).bind
  intro fileName _
  apply (panicsUnless_ifOk _).bind
  intro description _
  apply (panicsUnless_windowText sys window).bind
  intro text _
  apply (panicsUnless_ifOk _).bind
  intro commandLine _
  exact .of_ok _

theorem getExecutableFromPid_of_not_opens (h : ¬ sys.Opens pid) :
    ∃ e, sys.getExecutableFromPid pid = .err e := by
  rw [Desktop.getExecutableFromPid]
  cases hopen : sys.openProcess pid with
  | none => exact ⟨_, rfl⟩
  | some parent =>
      have hpath : sys.moduleFileName pid = [] := by
        by_contra hpath
        exact h ⟨by simp [hopen], hpath⟩
      exact ⟨_, if_pos hpath⟩

theorem getExecutableFromPid_of_opens (h : sys.Opens pid) :
    sys.getExecutableFromPid pid = fromUtf16 (sys.moduleFileName pid) := by
  obtain ⟨hopen, hpath⟩ := h
  rw [Desktop.getExecutableFromPid]
  cases hopened : sys.openProcess pid with
  | none => exact absurd hopened hopen
  | some parent => exact if_neg hpath

/-- A process that cannot be opened is no panic. -/
theorem describe_of_not_opens (h : ¬ sys.Opens pid) : ∃ e, sys.describe pid window = .err e := by
  obtain ⟨e, he⟩ := getExecutableFromPid_of_not_opens sys pid h
  exact ⟨e, by rw [Desktop.describe, he, Outcome.err_bind]⟩

/-- **One process** that can be opened is described if all that is said about it is text, and is a
panic otherwise. -/
theorem panicsUnless_describe (h : sys.Opens pid) :
    (sys.describe pid window).PanicsUnless (sys.WellFormed pid window) := by
  have hpath := getExecutableFromPid_of_opens sys pid h
  cases hexe : Utf16.decode (sys.moduleFileName pid) with
  | none =>
      refine Or.inr ⟨?_, ?_⟩
      · rintro ⟨exe, hname, -⟩
        rw [hname, Utf16.decode_encode] at hexe
        cases hexe
      · rw [Desktop.describe, hpath, fromUtf16, hexe, Outcome.panic_bind]
  | some exe =>
      have hname := Utf16.decode_eq_some_iff.1 hexe
      rw [fromUtf16, hexe] at hpath
      have hformed : sys.WellFormed pid window ↔ sys.fileName (String.ofList exe) ≠ none ∧
          (sys.fileName (String.ofList exe) ≠ none ∧
            ∀ u ∈ sys.units (String.ofList exe) pid window, IsText u) ∧ True := by
        rw [and_true, and_iff_right_of_imp And.left]
        constructor
        · rintro ⟨exe', hname', hformed⟩
          rw [hname', Utf16.decode_encode, Option.some.injEq] at hexe
          rwa [← hexe]
        · intro hformed
          exact ⟨exe, hname, hformed⟩
      rw [hformed, Desktop.describe, hpath, Outcome.ok_bind]
      apply (panicsUnless_unwrapFileName sys _).bind
      intro fileName _
      apply (panicsUnless_texts sys pid window hpath).bind
      intro texts _
      exact .of_ok _

end Process

/-! ## A client -/

namespace Desktop

variable (sys : Desktop)

/-- The stack that the loop of `collect_requester_info` collects on the way. -/
def stackOf (visited : List Pid) : List (Pid × Option Window) :=
  visited.map fun pid => (pid, sys.findPrimaryWindow pid)

/-- `collect_requester_info`, with fuel for every walk that ends. `none` is a loop that does not. -/
def describeClient (pid : Pid) : Option (Outcome Error RequesterInfo) :=
  collectRequesterInfo sys.toWindows sys.describe (2 ^ 32 + 1) pid

/-- The walk from the client ends, and if the main process can be opened, then what is said about
each process on the way that can be opened is text. -/
def Describes (pid : Pid) : Prop :=
  ∃ visited, Walk.Visits sys.getParentPid 0 pid visited ∧ visited ≠ [] ∧
    ((∃ main, mainProcess (sys.stackOf visited) = some main ∧ sys.Opens main.1) →
      ∀ p ∈ visited, sys.Opens p → sys.WellFormed p (sys.findPrimaryWindow p))

end Desktop

theorem mainProcess_mem {stack : List (Pid × Option Window)} {main : Pid × Option Window}
    (h : mainProcess stack = some main) : main ∈ stack := by
  rw [mainProcess, Option.or_eq_some_iff, Option.or_eq_some_iff] at h
  rcases h with h | ⟨-, h | ⟨-, h⟩⟩
  · exact List.mem_of_find?_eq_some h
  · exact List.mem_of_find?_eq_some h
  · exact List.mem_of_head? h

section Client

variable (sys : Desktop)

/-- The long descriptions need text about every process that can be opened. -/
theorem panicsUnless_longDescriptions (stack : List (Pid × Option Window)) :
    (longDescriptions sys.describe stack).PanicsUnless
      (∀ p ∈ stack, sys.Opens p.1 → sys.WellFormed p.1 p.2) := by
  induction stack with
  | nil => exact Or.inl ⟨by simp, [], rfl⟩
  | cons process stack ih =>
      rcases process with ⟨pid, window⟩
      rw [longDescriptions]
      by_cases hopens : sys.Opens pid
      · rcases panicsUnless_describe sys pid window hopens with
          ⟨hformed, ⟨short, long⟩, hdescribe⟩ | ⟨hformed, hdescribe⟩
        · rw [hdescribe]
          refine (ih.bind fun longs _ => .of_ok _).congr ?_
          simp [hformed]
        · rw [hdescribe]
          refine Or.inr ⟨?_, rfl⟩
          intro hall
          exact hformed (hall _ List.mem_cons_self hopens)
      -- a process that cannot be opened has no entry
      · obtain ⟨e, he⟩ := describe_of_not_opens sys pid window hopens
        rw [he]
        refine ih.congr ?_
        simp [hopens]

/-- **A client and its ancestors.** With a main process that cannot be opened nothing else is looked
at. -/
theorem describeStack_eq_panic_iff (stack : List (Pid × Option Window)) :
    describeStack sys.describe stack = .panic ↔
      stack = [] ∨ (∃ main, mainProcess stack = some main ∧ sys.Opens main.1) ∧
        ¬ ∀ p ∈ stack, sys.Opens p.1 → sys.WellFormed p.1 p.2 := by
  rw [describeStack]
  cases hmain : mainProcess stack with
  | none =>
      have hnil : stack = [] := by
        by_contra hne
        exact mainProcess_ne_none hne hmain
      exact iff_of_true rfl (Or.inl hnil)
  | some main =>
      have hmem := mainProcess_mem hmain
      have hne : stack ≠ [] := List.ne_nil_of_mem hmem
      by_cases hopens : sys.Opens main.1
      · have hstack := (panicsUnless_describe sys main.1 main.2 hopens).bind fun texts _ =>
          (panicsUnless_longDescriptions sys stack).bind fun longs _ =>
            .of_ok ({ descriptionShort := texts.1
                      descriptionLong := String.intercalate "\n\n" longs } : RequesterInfo)
        -- the main process is on the stack
        have hall : (sys.WellFormed main.1 main.2 ∧
            (∀ p ∈ stack, sys.Opens p.1 → sys.WellFormed p.1 p.2) ∧ True) ↔
              ∀ p ∈ stack, sys.Opens p.1 → sys.WellFormed p.1 p.2 := by
          rw [and_true]
          exact and_iff_right_of_imp fun h => h main hmem hopens
        refine (hstack.congr hall).eq_panic_iff.trans ?_
        simp [hne, hopens]
      · obtain ⟨e, he⟩ := describe_of_not_opens sys main.1 main.2 hopens
        refine iff_of_false ?_ ?_
        · simp [he]
        · simp [hne, hopens]

theorem card_pid : Nat.card Pid < 2 ^ 32 + 1 := by
  have hcard := Nat.card_le_card_of_injective UInt32.toFin fun _ _ h => UInt32.toFin_inj.1 h
  rw [Nat.card_fin] at hcard
  exact Nat.lt_succ_of_le hcard

/-- The fuel is enough. -/
theorem describeClient_eq_some_iff {pid : Pid} {result : Outcome Error RequesterInfo} :
    sys.describeClient pid = some result ↔
      ∃ visited, Walk.Visits sys.getParentPid 0 pid visited ∧
        describeStack sys.describe (sys.stackOf visited) = result := by
  rw [Desktop.describeClient, collectRequesterInfo, processStack_eq, Option.map_map,
    Option.map_eq_some_iff]
  simp only [Walk.walk_eq_some_iff card_pid]
  rfl

/-- The description has no end exactly when the walk has none. -/
theorem describeClient_eq_none_iff {pid : Pid} :
    sys.describeClient pid = none ↔ ¬ WalkEnds sys.toWindows pid := by
  rw [walkEnds_iff_exists_visits, Option.eq_none_iff_forall_ne_some]
  constructor
  · rintro hnone ⟨visited, hvisited⟩
    exact hnone _ ((describeClient_eq_some_iff sys).2 ⟨visited, hvisited, rfl⟩)
  · intro hnot result hresult
    obtain ⟨visited, hvisited, -⟩ := (describeClient_eq_some_iff sys).1 hresult
    exact hnot ⟨visited, hvisited⟩

/-- **A client is described** without a panic exactly when the walk from it ends and what is said
about the processes on the way is text. -/
theorem describes_iff {pid : Pid} :
    sys.Describes pid ↔ ∃ result, sys.describeClient pid = some result ∧ result ≠ .panic := by
  simp only [describeClient_eq_some_iff]
  constructor
  · rintro ⟨visited, hvisited, hne, hformed⟩
    refine ⟨_, ⟨visited, hvisited, rfl⟩, ?_⟩
    rw [Ne, describeStack_eq_panic_iff]
    rintro (hnil | ⟨hmain, hnot⟩)
    · exact hne (List.map_eq_nil_iff.1 hnil)
    · apply hnot
      intro p hp hopens
      obtain ⟨pid', hpid', rfl⟩ := List.mem_map.1 hp
      exact hformed hmain pid' hpid' hopens
  · rintro ⟨_, ⟨visited, hvisited, rfl⟩, hresult⟩
    rw [Ne, describeStack_eq_panic_iff, not_or, not_and, not_not] at hresult
    obtain ⟨hne, hformed⟩ := hresult
    refine ⟨visited, hvisited, ?_, ?_⟩
    · exact fun hnil => hne (List.map_eq_nil_iff.2 hnil)
    · intro hmain p hp hopens
      exact hformed hmain _ (List.mem_map_of_mem hp) hopens

end Client

/-! ## What a description tells -/

/-- What the long description has for a process. -/
structure Entry where
  pid : Pid
  short : String
  rest : String

/-- The entry as it is shown. -/
def Entry.text (entry : Entry) : String :=
  toString entry.pid ++ " : " ++ (entry.short ++ " : " ++ entry.rest)

section Entries

variable (sys : Desktop)

/-- The long description of a process is its id, its short description, and what follows. -/
theorem exists_rest_of_describe {pid : Pid} {window : Option Window} {short long : String}
    (h : sys.describe pid window = .ok (short, long)) :
    sys.Opens pid ∧ ∃ rest, (Entry.mk pid short rest).text = long := by
  constructor
  · by_contra hopens
    obtain ⟨e, he⟩ := describe_of_not_opens sys pid window hopens
    rw [he] at h
    cases h
  · rw [Desktop.describe, Outcome.bind_eq_ok_iff] at h
    obtain ⟨exe, -, h⟩ := h
    obtain ⟨fileName, -, h⟩ := Outcome.bind_eq_ok_iff.1 h
    obtain ⟨⟨short', long'⟩, htexts, h⟩ := Outcome.bind_eq_ok_iff.1 h
    simp only [Outcome.pure_eq, Outcome.ok.injEq, Prod.mk.injEq] at h
    obtain ⟨rfl, rfl⟩ := h
    rw [Desktop.defaultDescribe, Outcome.bind_eq_ok_iff] at htexts
    obtain ⟨exe', -, h⟩ := htexts
    obtain ⟨name, -, h⟩ := Outcome.bind_eq_ok_iff.1 h
    obtain ⟨description, -, h⟩ := Outcome.bind_eq_ok_iff.1 h
    obtain ⟨text, -, h⟩ := Outcome.bind_eq_ok_iff.1 h
    obtain ⟨commandLine, -, h⟩ := Outcome.bind_eq_ok_iff.1 h
    simp only [Outcome.pure_eq, Outcome.ok.injEq, Prod.mk.injEq] at h
    obtain ⟨rfl, rfl⟩ := h
    exact ⟨commandLine.getD exe', rfl⟩

/-- The entries are those of the processes that can be opened, in the order of the stack. -/
theorem exists_entries {stack : List (Pid × Option Window)} {longs : List String}
    (h : longDescriptions sys.describe stack = .ok longs) :
    ∃ entries : List Entry, entries.map Entry.text = longs ∧
      entries.map Entry.pid = (stack.map Prod.fst).filter sys.Opens ∧
      ∀ entry ∈ entries, ∃ process ∈ stack, process.1 = entry.pid ∧
        sys.describe process.1 process.2 = .ok (entry.short, entry.text) := by
  induction stack generalizing longs with
  | nil =>
      cases h
      exact ⟨[], rfl, rfl, by simp⟩
  | cons process stack ih =>
      rcases process with ⟨pid, window⟩
      rw [longDescriptions] at h
      cases hdescribe : sys.describe pid window with
      | ok texts =>
          rcases texts with ⟨short, long⟩
          rw [hdescribe] at h
          obtain ⟨longs', hlongs', h⟩ := Outcome.bind_eq_ok_iff.1 h
          cases h
          obtain ⟨entries, htexts, hpids, hsaid⟩ := ih hlongs'
          obtain ⟨hopens, rest, rfl⟩ := exists_rest_of_describe sys hdescribe
          refine ⟨⟨pid, short, rest⟩ :: entries, ?_, ?_, ?_⟩
          · rw [List.map_cons, htexts]
          · rw [List.map_cons, List.map_cons, List.filter_cons_of_pos (by simpa using hopens),
              hpids]
          · intro entry hentry
            rcases List.mem_cons.1 hentry with rfl | hentry
            · exact ⟨(pid, window), List.mem_cons_self, rfl, hdescribe⟩
            · obtain ⟨process, hprocess, hof⟩ := hsaid entry hentry
              exact ⟨process, List.mem_cons_of_mem _ hprocess, hof⟩
      | err e =>
          rw [hdescribe] at h
          obtain ⟨entries, htexts, hpids, hsaid⟩ := ih h
          have hopens : ¬ sys.Opens pid := by
            intro hopens
            rcases panicsUnless_describe sys pid window hopens with ⟨-, texts, hok⟩ | ⟨-, hpanic⟩
            · rw [hdescribe] at hok
              cases hok
            · rw [hdescribe] at hpanic
              cases hpanic
          refine ⟨entries, htexts, ?_, ?_⟩
          · rw [List.map_cons, List.filter_cons_of_neg (by simpa using hopens), hpids]
          · intro entry hentry
            obtain ⟨process, hprocess, hof⟩ := hsaid entry hentry
            exact ⟨process, List.mem_cons_of_mem _ hprocess, hof⟩
      | panic =>
          rw [hdescribe] at h
          cases h

/-- The long description has a line for each entry, with an empty one between two, exactly when no
entry has a line break. -/
theorem lines_of_entries {entries : List Entry} (hne : entries ≠ []) :
    (String.intercalate "\n\n" (entries.map Entry.text)).toList.splitOn '\n' =
        (entries.map fun entry => entry.text.toList).intersperse [] ↔
      ∀ entry ∈ entries, '\n' ∉ entry.text.toList := by
  have htexts : (String.intercalate "\n\n" (entries.map Entry.text)).toList =
      ['\n', '\n'].intercalate (entries.map fun entry => entry.text.toList) := by
    rw [String.toList_intercalate, List.map_map]
    rfl
  rw [htexts, Lines.splitOn_blank_iff (by simpa using hne), List.forall_mem_map]

end Entries

/-- The long description has an entry for each process on the way that can be opened, in the order
of the way, and the short description is that of the main process. -/
structure Tells (sys : Desktop) (visited : List Pid) (entries : List Entry)
    (info : RequesterInfo) : Prop where
  long : info.descriptionLong = String.intercalate "\n\n" (entries.map Entry.text)
  pids : entries.map Entry.pid = visited.filter sys.Opens
  /-- An entry is what the system says about its process. -/
  said : ∀ entry ∈ entries,
    sys.describe entry.pid (sys.findPrimaryWindow entry.pid) = .ok (entry.short, entry.text)
  main : ∃ main ∈ visited, mainProcess (sys.stackOf visited) =
      some (main, sys.findPrimaryWindow main) ∧
    ∃ entry ∈ entries, entry.pid = main ∧ entry.short = info.descriptionShort
  /-- Who reads the lines finds the entries, and lines of nothing else, exactly when no text has a
  line break of its own. -/
  lines : info.descriptionLong.toList.splitOn '\n' =
      (entries.map fun entry => entry.text.toList).intersperse [] ↔
    ∀ entry ∈ entries, '\n' ∉ entry.text.toList

/-- **The description of a client** tells of the processes on the way from it to its ancestors, and
of nothing else if none of their texts has a line break. -/
theorem described_client (sys : Desktop) (pid : Pid) (info : RequesterInfo)
    (h : sys.describeClient pid = some (.ok info)) :
    ∃ visited entries, Walk.Visits sys.getParentPid 0 pid visited ∧
      Tells sys visited entries info := by
  obtain ⟨visited, hvisited, hstack⟩ := (describeClient_eq_some_iff sys).1 h
  rw [describeStack] at hstack
  cases hmain : mainProcess (sys.stackOf visited) with
  | none =>
      rw [hmain] at hstack
      cases hstack
  | some main =>
      rw [hmain] at hstack
      obtain ⟨⟨short, long⟩, hshort, hstack⟩ := Outcome.bind_eq_ok_iff.1 hstack
      obtain ⟨longs, hlongs, hinfo⟩ := Outcome.bind_eq_ok_iff.1 hstack
      cases hinfo
      obtain ⟨entries, htexts, hpids, hsaid⟩ := exists_entries sys hlongs
      obtain ⟨main, hmem, rfl⟩ := List.mem_map.1 (mainProcess_mem hmain)
      have hpids' : entries.map Entry.pid = visited.filter sys.Opens := by
        rw [hpids, Desktop.stackOf, List.map_map]
        congr 1
        exact List.map_id visited
      have hsaid' (entry : Entry) (hentry : entry ∈ entries) :
          sys.describe entry.pid (sys.findPrimaryWindow entry.pid) =
            .ok (entry.short, entry.text) := by
        obtain ⟨process, hprocess, hpid, hdescribe⟩ := hsaid entry hentry
        obtain ⟨pid, -, rfl⟩ := List.mem_map.1 hprocess
        exact hpid ▸ hdescribe
      -- the main process can be opened, so it has an entry
      have hopens := (exists_rest_of_describe sys hshort).1
      have hentry : main ∈ entries.map Entry.pid := by
        rw [hpids', List.mem_filter]
        exact ⟨hmem, by simpa using hopens⟩
      obtain ⟨entry, hin, rfl⟩ := List.mem_map.1 hentry
      have hsame := (hsaid' entry hin).symm.trans hshort
      rw [Outcome.ok.injEq, Prod.mk.injEq] at hsame
      refine ⟨visited, entries, hvisited, ?_, hpids', hsaid', ?_, ?_⟩
      · rw [htexts]
      · exact ⟨entry.pid, hmem, hmain, entry, hin, rfl, hsame.1⟩
      · rw [← htexts]
        exact lines_of_entries (List.ne_nil_of_mem hin)

/-- A client without a window, and the console that started it. -/
def console : Desktop where
  openProcess pid := if pid = 8 then some (some 4) else if pid = 4 then some (some 0) else none
  windows := [{ hwnd := 1, processId := 4, visible := true }]
  moduleFileName pid := Utf16.encode (if pid = 8 then "C:\\ssh.exe" else "C:\\cmd.exe").toList
  fileName path := some (if path = "C:\\ssh.exe" then "ssh.exe" else "cmd.exe")
  versionInfo _ := none
  windowText _ := Utf16.encode "T".toList
  commandLine _ := none

theorem described_client_console :
    ∃ visited entries, Walk.Visits console.getParentPid 0 8 visited ∧
      Tells console visited entries { descriptionShort := "cmd.exe - T"
                                      descriptionLong := "8 : ssh.exe : C:\\ssh.exe\n\n" ++
                                        "4 : cmd.exe - T : C:\\cmd.exe" } :=
  described_client console 8 _ (by decide +kernel)

/-! ## Under the mutex -/

/-- The mutex, and whether it is held by a thread that never releases it. -/
structure Guarded where
  mutex : AgentMutex
  held : Bool

/-- The mutex is free, around a fresh agent. -/
def Guarded.start (w : World) : Guarded :=
  { mutex := { world := w, poisoned := false }, held := false }

/-- The next one to take the mutex will get it. -/
def Guarded.Usable (s : Guarded) : Prop := s.held = false ∧ s.mutex.poisoned = false

/-- How a listener comes to know its client. -/
inductive Requested where
  | found (requester : Option RequesterInfo)
  /-- A panic unwinds, which leaves the mutex like this. -/
  | unwound (mutex : AgentMutex)
  /-- The mutex is waited for, or kept, for ever. -/
  | never

/-- `agent.lock().unwrap()` of a listener, and `collect_requester_info` under the lock. -/
def Guarded.requester (s : Guarded) (sys : Desktop) (pid : Pid) : Requested :=
  if s.held then .never
  else if s.mutex.poisoned then .unwound s.mutex
  else
    match sys.describeClient pid with
    | none => .never
    | some .panic => .unwound { s.mutex with poisoned := true }
    | some (.ok info) => .found (some info)
    | some (.err _) => .found none

/-- What a description leaves behind. -/
def Guarded.describe (s : Guarded) (sys : Desktop) (pid : Pid) : Guarded :=
  match s.requester sys pid with
  | .found _ => s
  | .unwound mutex => { s with mutex }
  | .never => { s with held := true }

/-- What takes the mutex of the agent. -/
inductive MutexAct where
  /-- A listener describes a client, of which the system says this. -/
  | describe (sys : Desktop) (pid : Pid)
  | request (call : Call)

/-- The listeners and the connections, one after the other. Nobody gets a mutex that is held. -/
def guardedMachine (crates : Crates) : Machine Guarded MutexAct where
  step s act :=
    if s.held then none
    else
      match act with
      | .describe sys pid => some (s.describe sys pid)
      | .request call => some { s with mutex := (lockAndHandle crates s.mutex call).2.1 }

/-- The requests, in their order. -/
def requestsIn (acts : List MutexAct) : List Call :=
  acts.filterMap fun act =>
    match act with
    | .describe _ _ => none
    | .request call => some call

/-- **A listener comes to know its client**, or that the client is not to be known, exactly when it
gets the mutex and the client can be described. Otherwise the mutex is lost for the rest. -/
theorem requester_cases (s : Guarded) (sys : Desktop) (pid : Pid) :
    (s.Usable ∧ sys.Describes pid ∧
        (∃ requester, s.requester sys pid = .found requester) ∧ s.describe sys pid = s) ∨
      (¬ (s.Usable ∧ sys.Describes pid) ∧
        (∀ requester, s.requester sys pid ≠ .found requester) ∧ ¬ (s.describe sys pid).Usable) := by
  cases hheld : s.held with
  | true =>
      have hnever : s.requester sys pid = .never := if_pos hheld
      rw [Guarded.describe, hnever]
      exact Or.inr ⟨fun h => absurd (hheld.symm.trans h.1.1) nofun, fun _ => nofun, nofun⟩
  | false =>
  cases hpoisoned : s.mutex.poisoned with
  | true =>
      have hunwound : s.requester sys pid = .unwound s.mutex := by
        simp [Guarded.requester, hheld, hpoisoned]
      have hlost : ¬ s.Usable := fun h => absurd (hpoisoned.symm.trans h.2) nofun
      rw [Guarded.describe, hunwound]
      exact Or.inr ⟨fun h => hlost h.1, fun _ => nofun, hlost⟩
  | false =>
  have husable : s.Usable := ⟨hheld, hpoisoned⟩
  -- the four ends of a description
  rw [Guarded.describe, Guarded.requester, hheld, hpoisoned]
  cases hresult : sys.describeClient pid with
  | none =>
      refine Or.inr ⟨?_, fun _ => nofun, nofun⟩
      rintro ⟨-, hdescribes⟩
      obtain ⟨result, hsame, -⟩ := (describes_iff sys).1 hdescribes
      rw [hresult] at hsame
      cases hsame
  | some result =>
      cases result with
      | panic =>
          refine Or.inr ⟨?_, fun _ => nofun, nofun⟩
          rintro ⟨-, hdescribes⟩
          obtain ⟨result, hsame, hne⟩ := (describes_iff sys).1 hdescribes
          rw [hresult, Option.some.injEq] at hsame
          exact hne hsame.symm
      | ok info =>
          have hdescribes := (describes_iff sys).2 ⟨_, hresult, by simp⟩
          exact Or.inl ⟨husable, hdescribes, ⟨some info, rfl⟩, rfl⟩
      | err e =>
          have hdescribes := (describes_iff sys).2 ⟨_, hresult, by simp⟩
          exact Or.inl ⟨husable, hdescribes, ⟨none, rfl⟩, rfl⟩

section Guarded

variable (crates : Crates) (w : World)

theorem usable_start : (Guarded.start w).Usable := ⟨rfl, rfl⟩

omit w in
theorem exists_start_of_usable {s : Guarded} (h : s.Usable) : ∃ w, s = Guarded.start w := by
  rcases s with ⟨⟨w, poisoned⟩, held⟩
  obtain ⟨hheld, hpoisoned⟩ := h
  cases hheld
  cases hpoisoned
  exact ⟨w, rfl⟩

/-- A client that is described leaves everything as it is. -/
theorem step_describe_of_describes {sys : Desktop} {pid : Pid} (h : sys.Describes pid) :
    (guardedMachine crates).step (Guarded.start w) (.describe sys pid) =
      some (Guarded.start w) := by
  rcases requester_cases (Guarded.start w) sys pid with ⟨-, -, -, hsame⟩ | ⟨hnot, -⟩
  · exact congrArg some hsame
  · exact absurd ⟨usable_start w, h⟩ hnot

/-- Any other client takes the mutex from the rest. -/
theorem step_describe_of_not_describes {sys : Desktop} {pid : Pid} (h : ¬ sys.Describes pid) :
    ∃ s, (guardedMachine crates).step (Guarded.start w) (.describe sys pid) = some s ∧
      ¬ s.Usable := by
  rcases requester_cases (Guarded.start w) sys pid with ⟨-, hdescribes, -⟩ | ⟨-, -, hlost⟩
  · exact absurd hdescribes h
  · exact ⟨_, rfl, hlost⟩

theorem step_request_of_answerable {call : Call} (h : Answerable w call.buf) :
    (guardedMachine crates).step (Guarded.start w) (.request call) =
      some (Guarded.start (handled crates call.info w call.buf).world) := by
  obtain ⟨reply, hreply⟩ := lockAndHandle_of_answerable crates call h
  show some { Guarded.start w with
    mutex := (lockAndHandle crates { world := w, poisoned := false } call).2.1 } = _
  rw [hreply]
  rfl

theorem step_request_of_not_answerable {call : Call} (h : ¬ Answerable w call.buf) :
    ∃ s, (guardedMachine crates).step (Guarded.start w) (.request call) = some s ∧
      ¬ s.Usable := by
  refine ⟨_, rfl, ?_⟩
  show ¬ ({ Guarded.start w with
    mutex := (lockAndHandle crates { world := w, poisoned := false } call).2.1 } : Guarded).Usable
  rw [lockAndHandle_of_not_answerable crates call h]
  rintro ⟨-, hpoisoned⟩
  cases hpoisoned

theorem allUsable_of_step {s : Guarded} {act : MutexAct} {acts : List MutexAct}
    (hstep : (guardedMachine crates).step (Guarded.start w) act = some s) :
    (guardedMachine crates).AllStates Guarded.Usable (Guarded.start w) (act :: acts) ↔
      (guardedMachine crates).AllStates Guarded.Usable s acts := by
  constructor
  · rintro ⟨-, h⟩
    exact h s hstep
  · intro h
    refine ⟨usable_start w, ?_⟩
    intro s' hs'
    rw [hstep, Option.some.injEq] at hs'
    exact hs' ▸ h

theorem not_allUsable_of_step {act : MutexAct} (acts : List MutexAct)
    (h : ∃ s, (guardedMachine crates).step (Guarded.start w) act = some s ∧ ¬ s.Usable) :
    ¬ (guardedMachine crates).AllStates Guarded.Usable (Guarded.start w) (act :: acts) := by
  obtain ⟨s, hstep, hs⟩ := h
  rw [allUsable_of_step crates w hstep]
  exact fun hall => hs hall.head

/-- **What the agent outlives.** Through any sequence of clients that are described and requests
that are handled the mutex stays usable exactly when the walk from every client ends, all that is
said about the processes on the way is text, and the requests are harmless. -/
theorem agent_stays_usable_iff (acts : List MutexAct) :
    (guardedMachine crates).AllStates Guarded.Usable (Guarded.start w) acts ↔
      (∀ sys pid, .describe sys pid ∈ acts → sys.Describes pid) ∧
        HarmlessFrom w (requestsIn acts) := by
  induction acts generalizing w with
  | nil =>
      apply iff_of_true (usable_start w)
      refine ⟨?_, ?_⟩
      · intro sys pid hmem
        cases hmem
      · intro pre call post hcalls
        simp [requestsIn] at hcalls
  | cons act acts ih =>
      cases act with
      | describe sys pid =>
          by_cases hdescribes : sys.Describes pid
          · rw [allUsable_of_step crates w (step_describe_of_describes crates w hdescribes), ih]
            apply and_congr ?_ Iff.rfl
            constructor
            · intro hall sys' pid' hmem
              rcases List.mem_cons.1 hmem with heq | hmem
              · cases heq
                exact hdescribes
              · exact hall sys' pid' hmem
            · exact fun hall sys' pid' hmem => hall sys' pid' (List.mem_cons_of_mem _ hmem)
          · apply iff_of_false
            · exact not_allUsable_of_step crates w acts
                (step_describe_of_not_describes crates w hdescribes)
            · exact fun hall => hdescribes (hall.1 sys pid List.mem_cons_self)
      | request call =>
          have hcalls : requestsIn (.request call :: acts) = call :: requestsIn acts := rfl
          rw [hcalls, harmlessFrom_cons crates]
          by_cases hanswer : Answerable w call.buf
          · rw [allUsable_of_step crates w (step_request_of_answerable crates w hanswer), ih]
            simp [hanswer]
          · apply iff_of_false
            · exact not_allUsable_of_step crates w acts
                (step_request_of_not_answerable crates w hanswer)
            · exact fun hall => hanswer hall.2.1

end Guarded

/-- The title of a window, cut in the middle of a pair, poisons the mutex. -/
example : ({ console with windowText := fun _ => [0xD83D] }).describeClient 8 = some .panic := by
  decide +kernel

end SshKeys
