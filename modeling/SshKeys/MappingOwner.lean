import SshKeys.Requester
import SshKeys.Lib.Utf16

/-!
# The owner of a mapping

Which process a Pageant request comes from, after `platform/win/pageant/utils.rs`: the handles of
all processes are searched for a section with the name of the mapping. A section has its name at the
end of a path, and the search looks for the name anywhere in the path.

`owner_shown_iff` says when the process that is found is one that has the mapping open.
-/

set_option autoImplicit false

namespace SshKeys

open Lib

/-! ## Handles -/

/-- An entry of the system's handle table, with what the system answers about it. The casts between
the widths of process ids change none. -/
structure Handle where
  uniqueProcessId : Pid
  objectTypeIndex : UInt16
  /-- `OpenProcess` succeeds on the process. -/
  opens : Bool
  /-- `DuplicateHandle` succeeds. -/
  duplicates : Bool
  /-- `NtQueryObject` succeeds, and the name fits into the buffer. -/
  queries : Bool
  /-- The path of the object, empty without one. -/
  name : List UInt16
  deriving DecidableEq

/-- The search through the handles. `me` is the id of the agent's process. -/
def findOwner (me : Pid) (mappingName : String) : List Handle → Outcome Error (Option Pid)
  | [] => .ok none
  | handle :: handles =>
      if handle.objectTypeIndex ≠ 42 then findOwner me mappingName handles
      else if handle.uniqueProcessId = me then findOwner me mappingName handles
      else if handle.opens = false then findOwner me mappingName handles
      else if handle.duplicates = false then findOwner me mappingName handles
      else if handle.queries = false then findOwner me mappingName handles
      else
        match Utf16.decode handle.name with
        -- `String::from_utf16` is unwrapped
        | none => .panic
        | some name =>
            if mappingName.toList <:+: name then .ok (some handle.uniqueProcessId)
            else findOwner me mappingName handles

/-- `find_memory_map_owner_process`. `table` is the handle table, if the query for it succeeds. -/
def findMemoryMapOwnerProcess (table : Option (List Handle)) (me : Pid) (mappingName : String) :
    Outcome Error (Option Pid) :=
  match table with
  | none => .ok none
  | some handles => findOwner me mappingName handles

/-! ## The search -/

/-- A section of another process whose name can be found out. -/
def Readable (me : Pid) (handle : Handle) : Prop :=
  handle.objectTypeIndex = 42 ∧ handle.uniqueProcessId ≠ me ∧ handle.opens = true ∧
    handle.duplicates = true ∧ handle.queries = true

instance (me : Pid) (handle : Handle) : Decidable (Readable me handle) :=
  inferInstanceAs (Decidable (_ ∧ _))

/-- The path is text with the name of the mapping somewhere in it. -/
def Matches (mappingName : String) (handle : Handle) : Prop :=
  ∃ name, Utf16.decode handle.name = some name ∧ mappingName.toList <:+: name

/-- The search goes on behind the handle. -/
def Passed (me : Pid) (mappingName : String) (handle : Handle) : Prop :=
  Readable me handle →
    ∃ name, Utf16.decode handle.name = some name ∧ ¬ mappingName.toList <:+: name

theorem findOwner_of_passed {me : Pid} {mappingName : String} {handle : Handle}
    (h : Passed me mappingName handle) (handles : List Handle) :
    findOwner me mappingName (handle :: handles) = findOwner me mappingName handles := by
  rw [findOwner]
  by_cases hreadable : Readable me handle
  · obtain ⟨name, hname, hnot⟩ := h hreadable
    obtain ⟨htype, hother, hopens, hduplicates, hqueries⟩ := hreadable
    simp [htype, hother, hopens, hduplicates, hqueries, hname, hnot]
  -- one of the five tests sends the search on
  · simp only [Readable, not_and_or, Bool.not_eq_true, not_not] at hreadable
    rcases hreadable with h | h | h | h | h <;> simp [h]

theorem findOwner_of_matches {me : Pid} {mappingName : String} {handle : Handle}
    (hreadable : Readable me handle) (h : Matches mappingName handle) (handles : List Handle) :
    findOwner me mappingName (handle :: handles) = .ok (some handle.uniqueProcessId) := by
  obtain ⟨name, hname, hin⟩ := h
  obtain ⟨htype, hother, hopens, hduplicates, hqueries⟩ := hreadable
  simp [findOwner, htype, hother, hopens, hduplicates, hqueries, hname, hin]

theorem findOwner_of_no_text {me : Pid} {mappingName : String} {handle : Handle}
    (hreadable : Readable me handle) (h : Utf16.decode handle.name = none)
    (handles : List Handle) : findOwner me mappingName (handle :: handles) = .panic := by
  obtain ⟨htype, hother, hopens, hduplicates, hqueries⟩ := hreadable
  simp [findOwner, htype, hother, hopens, hduplicates, hqueries, h]

/-- A handle is passed, or it decides the search in one of two ways. -/
theorem passed_or (me : Pid) (mappingName : String) (handle : Handle) :
    Passed me mappingName handle ∨ Readable me handle ∧
      (Matches mappingName handle ∨ Utf16.decode handle.name = none) := by
  by_cases hreadable : Readable me handle
  · cases hname : Utf16.decode handle.name with
    | none => exact Or.inr ⟨hreadable, Or.inr rfl⟩
    | some name =>
        by_cases hin : mappingName.toList <:+: name
        · exact Or.inr ⟨hreadable, Or.inl ⟨name, hname, hin⟩⟩
        · exact Or.inl fun _ => ⟨name, hname, hin⟩
  · exact Or.inl fun h => absurd h hreadable

/-- The handles that are passed do not decide the search. -/
theorem findOwner_append_of_passed {me : Pid} {mappingName : String} {before : List Handle}
    (h : ∀ handle ∈ before, Passed me mappingName handle) (handles : List Handle) :
    findOwner me mappingName (before ++ handles) = findOwner me mappingName handles := by
  induction before with
  | nil => rfl
  | cons first before ih =>
      rw [List.cons_append, findOwner_of_passed (h first List.mem_cons_self)]
      exact ih fun handle hmem => h handle (List.mem_cons_of_mem first hmem)

/-- All handles are passed, or there is a first one that is not. -/
theorem passed_or_first (me : Pid) (mappingName : String) (handles : List Handle) :
    (∀ handle ∈ handles, Passed me mappingName handle) ∨
      ∃ before handle after, handles = before ++ handle :: after ∧
        (∀ h ∈ before, Passed me mappingName h) ∧ ¬ Passed me mappingName handle := by
  induction handles with
  | nil => exact Or.inl (by simp)
  | cons first handles ih =>
      by_cases hfirst : Passed me mappingName first
      · rcases ih with hall | ⟨before, handle, after, rfl, hbefore, hhandle⟩
        · exact Or.inl (List.forall_mem_cons.2 ⟨hfirst, hall⟩)
        · exact Or.inr ⟨first :: before, handle, after, rfl,
            List.forall_mem_cons.2 ⟨hfirst, hbefore⟩, hhandle⟩
      · exact Or.inr ⟨[], first, handles, rfl, by simp, hfirst⟩

/-- A process is found exactly when the first handle that is not passed is one of its own and
matches. -/
theorem findOwner_eq_some_iff {me pid : Pid} {mappingName : String} {handles : List Handle} :
    findOwner me mappingName handles = .ok (some pid) ↔
      ∃ before handle after, handles = before ++ handle :: after ∧
        (∀ h ∈ before, Passed me mappingName h) ∧ Readable me handle ∧
        Matches mappingName handle ∧ handle.uniqueProcessId = pid := by
  constructor
  · intro h
    induction handles with
    | nil => simp [findOwner] at h
    | cons handle handles ih =>
        rcases passed_or me mappingName handle with hpassed | ⟨hreadable, hmatches | hnone⟩
        · rw [findOwner_of_passed hpassed] at h
          obtain ⟨before, found, after, rfl, hbefore, hfound⟩ := ih h
          refine ⟨handle :: before, found, after, rfl, ?_, hfound⟩
          intro h' hmem
          rcases List.mem_cons.1 hmem with rfl | hmem
          · exact hpassed
          · exact hbefore h' hmem
        · rw [findOwner_of_matches hreadable hmatches, Outcome.ok.injEq, Option.some.injEq] at h
          exact ⟨[], handle, handles, rfl, by simp, hreadable, hmatches, h⟩
        · rw [findOwner_of_no_text hreadable hnone] at h
          cases h
  · rintro ⟨before, handle, after, rfl, hbefore, hreadable, hmatches, rfl⟩
    rw [findOwner_append_of_passed hbefore]
    exact findOwner_of_matches hreadable hmatches after

/-- No process is found exactly when every handle is passed. -/
theorem findOwner_eq_none_iff {me : Pid} {mappingName : String} {handles : List Handle} :
    findOwner me mappingName handles = .ok none ↔
      ∀ handle ∈ handles, Passed me mappingName handle := by
  induction handles with
  | nil => simp [findOwner]
  | cons handle handles ih =>
      rw [List.forall_mem_cons]
      rcases passed_or me mappingName handle with hpassed | ⟨hreadable, hmatches | hnone⟩
      · rw [findOwner_of_passed hpassed, ih]
        exact (and_iff_right hpassed).symm
      · rw [findOwner_of_matches hreadable hmatches]
        apply iff_of_false (by simp)
        rintro ⟨hpassed, -⟩
        obtain ⟨name, hname, hin⟩ := hmatches
        obtain ⟨name', hname', hnot⟩ := hpassed hreadable
        rw [hname, Option.some.injEq] at hname'
        exact hnot (hname' ▸ hin)
      · rw [findOwner_of_no_text hreadable hnone]
        apply iff_of_false (by simp)
        rintro ⟨hpassed, -⟩
        obtain ⟨name', hname', -⟩ := hpassed hreadable
        rw [hnone] at hname'
        cases hname'

/-! ## Names -/

/-- The code unit that separates the components of a path. -/
def backslash : UInt16 := 0x5c

/-- The last component of the path is the name of the mapping. -/
def Named (mappingName : String) (path : List UInt16) : Prop :=
  backslash ∉ Utf16.encode mappingName.toList ∧
    (path = Utf16.encode mappingName.toList ∨
      backslash :: Utf16.encode mappingName.toList <:+ path)

instance (mappingName : String) (path : List UInt16) : Decidable (Named mappingName path) :=
  inferInstanceAs (Decidable (_ ∧ _))

/-- The process holds a handle to a section with the name of the mapping. -/
def Holds (handles : List Handle) (pid : Pid) (mappingName : String) : Prop :=
  ∃ handle ∈ handles, handle.objectTypeIndex = 42 ∧ handle.uniqueProcessId = pid ∧
    Named mappingName handle.name

instance (handles : List Handle) (pid : Pid) (mappingName : String) :
    Decidable (Holds handles pid mappingName) :=
  inferInstanceAs (Decidable (∃ handle ∈ handles, _))

/-- What has the name at the end has it somewhere. -/
theorem infix_of_named {mappingName : String} {path : List UInt16} {name : List Char}
    (h : Named mappingName path) (hname : Utf16.decode path = some name) :
    mappingName.toList <:+: name := by
  obtain ⟨-, rfl | ⟨directory, rfl⟩⟩ := h
  · rw [Utf16.decode_encode, Option.some.injEq] at hname
    rw [← hname]
  · have hplain : Utf16.Plain backslash := by decide
    obtain ⟨before, after, -, hafter, rfl⟩ := Utf16.decode_append_cons hplain hname
    rw [Utf16.decode_encode, Option.some.injEq] at hafter
    rw [← hafter]
    exact (List.suffix_cons _ _).isInfix.trans (List.suffix_append _ _).isInfix

/-- The process that is shown as the requester holds the mapping, and where none is shown no handle
to the mapping could be found. -/
structure OwnerShown (table : Option (List Handle)) (me : Pid) (mappingName : String) : Prop where
  owner : ∀ pid, findMemoryMapOwnerProcess table me mappingName = .ok (some pid) →
    pid ≠ me ∧ ∃ handles, table = some handles ∧ Holds handles pid mappingName
  nobody : ∀ handles, table = some handles →
    findMemoryMapOwnerProcess table me mappingName = .ok none →
    ∀ handle ∈ handles, Readable me handle → ¬ Named mappingName handle.name

/-- **The owner of a mapping** is the process that is shown exactly when the first process with the
name somewhere in the path of a section also holds a section that has this name. -/
theorem owner_shown_iff (table : Option (List Handle)) (me : Pid) (mappingName : String) :
    OwnerShown table me mappingName ↔
      ∀ before handle after, table = some (before ++ handle :: after) →
        (∀ h ∈ before, Passed me mappingName h) → Readable me handle →
        Matches mappingName handle →
        Holds (before ++ handle :: after) handle.uniqueProcessId mappingName := by
  constructor
  · rintro h before handle after rfl hbefore hreadable hmatches
    have hfound : findMemoryMapOwnerProcess (some (before ++ handle :: after)) me mappingName =
        .ok (some handle.uniqueProcessId) :=
      findOwner_eq_some_iff.2 ⟨before, handle, after, rfl, hbefore, hreadable, hmatches, rfl⟩
    obtain ⟨-, handles, hhandles, hholds⟩ := h.owner _ hfound
    rw [Option.some.injEq] at hhandles
    rwa [hhandles]
  · intro h
    cases table with
    | none =>
        constructor
        · intro pid hfound
          cases hfound
        · intro handles hhandles
          cases hhandles
    | some handles =>
        constructor
        · intro pid hfound
          obtain ⟨before, handle, after, rfl, hbefore, hreadable, hmatches, rfl⟩ :=
            findOwner_eq_some_iff.1 hfound
          exact ⟨hreadable.2.1, _, rfl, h before handle after rfl hbefore hreadable hmatches⟩
        · rintro _ ⟨⟩ hnobody handle hmem hreadable hnamed
          obtain ⟨name, hname, hnot⟩ := findOwner_eq_none_iff.1 hnobody handle hmem hreadable
          exact hnot (infix_of_named hnamed hname)

/-- A section of the process `pid` that can be read. -/
def sectionOf (pid : Pid) (path : String) : Handle where
  uniqueProcessId := pid
  objectTypeIndex := 42
  opens := true
  duplicates := true
  queries := true
  name := Utf16.encode path.toList

/-- In front of the handle of the client there is one of a process with a longer name. -/
def longerName : List Handle :=
  [sectionOf 66 "\\BaseNamedObjects\\PageantRequest00001234x",
    sectionOf 77 "\\BaseNamedObjects\\PageantRequest00001234"]

/-- The process with the longer name is shown instead of the client. -/
theorem longer_name_is_shown :
    findMemoryMapOwnerProcess (some longerName) 1 "PageantRequest00001234" = .ok (some 66) ∧
      ¬ OwnerShown (some longerName) 1 "PageantRequest00001234" := by
  have hfound : findMemoryMapOwnerProcess (some longerName) 1 "PageantRequest00001234" =
      .ok (some 66) := by decide +kernel
  refine ⟨hfound, ?_⟩
  intro h
  obtain ⟨-, handles, hhandles, hholds⟩ := h.owner 66 hfound
  rw [Option.some.injEq] at hhandles
  subst hhandles
  exact absurd hholds (by decide +kernel)

end SshKeys
