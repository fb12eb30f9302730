import SshKeys.Agent
import SshKeys.Lib.Walk

/-!
# The description of a requester

What the dialog says about the process that asks, after `platform/win/utils.rs`:
`collect_requester_info` walks from the process to its ancestors, along the parents that the system
recorded when they were started, and describes what it finds. The recorded parent of a process is
never updated, and its id can be given to another process.

`requester_walk_ends_iff` says when the walk ends.
-/

set_option autoImplicit false

namespace SshKeys

open Lib

/-! ## Processes and windows -/

/-- The id of a process, where zero is none. -/
abbrev Pid := UInt32

instance : Finite Pid := Finite.of_injective UInt32.toFin fun _ _ h => UInt32.toFin_inj.1 h

/-- A window of the desktop, with the process that made it. -/
structure Window where
  hwnd : UInt64
  processId : Pid
  /-- `IsWindowVisible` -/
  visible : Bool
  deriving DecidableEq

/-- The system that the agent runs on. -/
structure Windows where
  /-- `OpenProcess` with `PROCESS_QUERY_LIMITED_INFORMATION`, and then
  `InheritedFromUniqueProcessId` of `NtQueryInformationProcess`. -/
  openProcess : Pid → Option (Option UInt64)
  /-- The windows in the order of `EnumWindows`. -/
  windows : List Window

namespace Windows

variable (sys : Windows)

/-- A process that cannot be opened or queried has no parent. -/
def getParentPid (pid : Pid) : Pid :=
  match sys.openProcess pid with
  | none => 0
  | some none => 0
  | some (some inheritedFromUniqueProcessId) => inheritedFromUniqueProcessId.toUInt32

/-- The first visible window of the process, or else its first window. -/
def findPrimaryWindow (processId : Pid) : Option Window :=
  let windows := sys.windows.filter fun window => window.processId = processId
  if windows.isEmpty then none
  else (windows.find? fun window => window.visible).or windows.head?

/-- The loop of `collect_requester_info`, with at most `fuel` tests of its condition. -/
def processStack : Nat → Pid → List (Pid × Option Window) → Option (List (Pid × Option Window))
  | 0, _, _ => none
  | fuel + 1, pid, stack =>
      if pid ≠ 0 then
        let window := sys.findPrimaryWindow pid
        processStack fuel (sys.getParentPid pid) (stack ++ [(pid, window)])
      else some stack

end Windows

/-- A process with a visible window, or else one with a window, or else the first one. -/
def mainProcess (stack : List (Pid × Option Window)) : Option (Pid × Option Window) :=
  (stack.find? fun process => process.2.any fun window => window.visible).or
    ((stack.find? fun process => process.2.isSome).or stack.head?)

/-- The long descriptions of the processes that can be described. -/
def longDescriptions (describe : Pid → Option Window → Outcome Error (String × String)) :
    List (Pid × Option Window) → Outcome Error (List String)
  | [] => .ok []
  | (pid, window) :: stack =>
      match describe pid window with
      | .ok (_, long) => longDescriptions describe stack >>= fun longs => .ok (long :: longs)
      | .err _ => longDescriptions describe stack
      | .panic => .panic

/-- `collect_requester_info` behind its loop. -/
def describeStack (describe : Pid → Option Window → Outcome Error (String × String))
    (stack : List (Pid × Option Window)) : Outcome Error RequesterInfo :=
  match mainProcess stack with
  | none => .panic
  | some (pid, window) => do
      let (short, _) ← describe pid window
      let longs ← longDescriptions describe stack
      pure { descriptionShort := short, descriptionLong := String.intercalate "\n\n" longs }

/-- `collect_requester_info`. `none` is a loop that did not end within the fuel. -/
def collectRequesterInfo (sys : Windows)
    (describe : Pid → Option Window → Outcome Error (String × String)) (fuel : Nat) (pid : Pid) :
    Option (Outcome Error RequesterInfo) :=
  (sys.processStack fuel pid []).map (describeStack describe)

/-! ## The walk -/

/-- The loop is the walk along the parents, with a window for each process that is visited. -/
theorem processStack_eq (sys : Windows) (fuel : Nat) (pid : Pid)
    (stack : List (Pid × Option Window)) :
    sys.processStack fuel pid stack = (Walk.walk sys.getParentPid 0 fuel pid).map fun visited =>
      stack ++ visited.map fun pid => (pid, sys.findPrimaryWindow pid) := by
  induction fuel generalizing pid stack with
  | zero => rfl
  | succ fuel ih =>
      rw [Windows.processStack, Walk.walk]
      by_cases hpid : pid = 0
      · simp [hpid]
      · simp only [hpid, ne_eq, not_false_eq_true, if_true, if_false, ih, Option.map_map]
        congr 1
        funext visited
        simp

/-- The recorded parent. -/
def IsParent (sys : Windows) (child parent : Pid) : Prop :=
  child ≠ 0 ∧ sys.getParentPid child = parent

/-- `b` is recorded as an ancestor of `a`. -/
def Ancestor (sys : Windows) (a b : Pid) : Prop := Relation.TransGen (IsParent sys) a b

/-- The loop ends, and what it collected names no process twice. -/
def WalkEnds (sys : Windows) (pid : Pid) : Prop :=
  ∃ fuel stack, sys.processStack fuel pid [] = some stack ∧ (stack.map Prod.fst).Nodup

theorem exists_processStack_eq_some_iff {sys : Windows} {pid : Pid}
    {stack : List (Pid × Option Window)} :
    (∃ fuel, sys.processStack fuel pid [] = some stack) ↔
      ∃ visited, Walk.Visits sys.getParentPid 0 pid visited ∧
        stack = visited.map fun pid => (pid, sys.findPrimaryWindow pid) := by
  simp only [processStack_eq, List.nil_append, Option.map_eq_some_iff,
    ← Walk.exists_walk_eq_some_iff]
  constructor
  · rintro ⟨fuel, visited, hvisited, rfl⟩
    exact ⟨visited, ⟨fuel, hvisited⟩, rfl⟩
  · rintro ⟨visited, ⟨fuel, hvisited⟩, rfl⟩
    exact ⟨fuel, visited, hvisited, rfl⟩

theorem walkEnds_iff_exists_visits {sys : Windows} {pid : Pid} :
    WalkEnds sys pid ↔ ∃ visited, Walk.Visits sys.getParentPid 0 pid visited := by
  constructor
  · rintro ⟨fuel, stack, hstack, -⟩
    obtain ⟨visited, hvisited, -⟩ := exists_processStack_eq_some_iff.1 ⟨fuel, hstack⟩
    exact ⟨visited, hvisited⟩
  · rintro ⟨visited, hvisited⟩
    obtain ⟨fuel, hfuel⟩ := exists_processStack_eq_some_iff.2 ⟨visited, hvisited, rfl⟩
    have hpids : (visited.map fun pid => (pid, sys.findPrimaryWindow pid)).map Prod.fst =
        visited := by
      rw [List.map_map]
      exact List.map_id visited
    exact ⟨fuel, _, hfuel, hpids.symm ▸ hvisited.nodup⟩

/-- **The walk to the ancestors** ends, having visited each process once, exactly when no process on
its way is recorded as an ancestor of itself. -/
theorem requester_walk_ends_iff (sys : Windows) (pid : Pid) :
    WalkEnds sys pid ↔
      ∀ a, a = pid ∨ Ancestor sys pid a → ¬ Ancestor sys a a := by
  rw [walkEnds_iff_exists_visits, Walk.exists_visits_iff]
  constructor
  · rintro h a (rfl | ha)
    · exact h a .refl
    · exact h a ha.to_reflTransGen
  · intro h a ha
    rcases Relation.reflTransGen_iff_eq_or_transGen.1 ha with rfl | ha
    · exact h a (Or.inl rfl)
    · exact h a (Or.inr ha)

/-- The process `8` was started by a process `12` that is gone, and its own child was given that
id. -/
def reusedPid : Windows where
  openProcess pid := if pid = 8 then some (some 12) else if pid = 12 then some (some 8) else none
  windows := []

/-- A requester whose recorded parent is a descendant of its own is walked up from for ever. -/
theorem reused_pid_never_ends :
    (∀ fuel, reusedPid.processStack fuel 8 [] = none) ∧ ¬ WalkEnds reusedPid 8 := by
  have hcycle : Relation.TransGen (Walk.Next reusedPid.getParentPid 0) 8 8 :=
    .head ⟨by decide, rfl⟩ (.single ⟨by decide, rfl⟩)
  have hnever (fuel : Nat) : reusedPid.processStack fuel 8 [] = none := by
    cases hstack : reusedPid.processStack fuel 8 [] with
    | none => rfl
    | some stack =>
        obtain ⟨visited, hvisited, -⟩ := exists_processStack_eq_some_iff.1 ⟨fuel, hstack⟩
        exact absurd hcycle hvisited.not_transGen_self
  refine ⟨hnever, ?_⟩
  rintro ⟨fuel, stack, hstack, -⟩
  rw [hnever fuel] at hstack
  cases hstack

/-! ## The description -/

theorem mainProcess_ne_none {stack : List (Pid × Option Window)} (h : stack ≠ []) :
    mainProcess stack ≠ none := by
  obtain ⟨process, rest, rfl⟩ := List.exists_cons_of_ne_nil h
  rw [mainProcess, Ne, Option.or_eq_none_iff, Option.or_eq_none_iff]
  rintro ⟨-, -, hhead⟩
  cases hhead

/-- A description is made exactly when the walk to the ancestors ends. -/
theorem exists_collectRequesterInfo_iff (sys : Windows)
    (describe : Pid → Option Window → Outcome Error (String × String)) (pid : Pid) :
    (∃ fuel result, collectRequesterInfo sys describe fuel pid = some result) ↔
      WalkEnds sys pid := by
  constructor
  · rintro ⟨fuel, result, hresult⟩
    obtain ⟨stack, hstack, -⟩ := Option.map_eq_some_iff.1 hresult
    obtain ⟨visited, hvisited, -⟩ := exists_processStack_eq_some_iff.1 ⟨fuel, hstack⟩
    exact walkEnds_iff_exists_visits.2 ⟨visited, hvisited⟩
  · rintro ⟨fuel, stack, hstack, -⟩
    exact ⟨fuel, describeStack describe stack, by rw [collectRequesterInfo, hstack]; rfl⟩

end SshKeys
