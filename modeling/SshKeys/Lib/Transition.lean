import Mathlib.Tactic.Common

/-!
# Runs of a machine with partial steps

A machine takes an action in a state when its step function answers with a next state. A run is a
list of actions, taken one after the other. `AllStates` says that a property holds in every state a
run passes, `AllSteps` that a property of the state before and the action holds at every step it
takes.

The rules carry a fact about one step to whole runs: an invariant holds after every run
(`run_invariant`, and `run_invariant_past` where it speaks of the actions taken), and a property
holds in all states exactly when every step meets a condition that decides each step
(`allStates_iff_allSteps`). `CanReach` says that some run leads to a property, whatever came before.
-/

set_option autoImplicit false

namespace Lib

universe u v

/-- A machine: the next state after an action, or `none` where the action cannot be taken. -/
structure Machine (σ : Type u) (α : Type v) where
  step : σ → α → Option σ

namespace Machine

variable {σ : Type u} {α : Type v} (M : Machine σ α)

/-- The state after a list of actions, if each of them can be taken. -/
def run : σ → List α → Option σ
  | s, [] => some s
  | s, a :: as =>
      match M.step s a with
      | some s' => run s' as
      | none => none

/-- Every state passed from `s` along the actions satisfies `P`, the first included. -/
def AllStates (P : σ → Prop) : σ → List α → Prop
  | s, [] => P s
  | s, a :: as => P s ∧ ∀ s', M.step s a = some s' → AllStates P s' as

/-- Every step taken from `s` along the actions satisfies `G`, read in the state before it. -/
def AllSteps (G : σ → α → Prop) : σ → List α → Prop
  | _, [] => True
  | s, a :: as => ∀ s', M.step s a = some s' → G s a ∧ AllSteps G s' as

variable {M}

instance decidableAllStates {P : σ → Prop} [DecidablePred P] :
    ∀ (s : σ) (as : List α), Decidable (M.AllStates P s as)
  | s, [] => inferInstanceAs (Decidable (P s))
  | s, a :: as =>
      have : Decidable (∀ s', M.step s a = some s' → M.AllStates P s' as) :=
        match h : M.step s a with
        | none => isTrue fun s' h' => by simp at h'
        | some t =>
            match decidableAllStates t as with
            | isTrue ht => isTrue fun s' h' => by rwa [← Option.some.inj h']
            | isFalse ht => isFalse fun h' => ht (h' t rfl)
      inferInstanceAs (Decidable (P s ∧ ∀ s', M.step s a = some s' → M.AllStates P s' as))

instance decidableAllSteps {G : σ → α → Prop} [∀ s a, Decidable (G s a)] :
    ∀ (s : σ) (as : List α), Decidable (M.AllSteps G s as)
  | _, [] => isTrue trivial
  | s, a :: as =>
      match h : M.step s a with
      | none => isTrue fun s' h' => by simp [h] at h'
      | some t =>
          match decidableAllSteps t as with
          | isTrue ht =>
              if hG : G s a then isTrue fun s' h' => by
                rw [h, Option.some.injEq] at h'
                exact ⟨hG, h' ▸ ht⟩
              else isFalse fun h' => hG (h' t h).1
          | isFalse ht => isFalse fun h' => ht (h' t h).2

theorem run_cons_eq_some {s t : σ} {a : α} {as : List α} (h : M.run s (a :: as) = some t) :
    ∃ s', M.step s a = some s' ∧ M.run s' as = some t := by
  simp only [run] at h
  cases hs : M.step s a with
  | none => simp [hs] at h
  | some s' =>
      rw [hs] at h
      exact ⟨s', rfl, h⟩

/-- **Invariant rule.** What every step keeps holds after every run. -/
theorem run_invariant {I : σ → Prop} (hstep : ∀ s a s', I s → M.step s a = some s' → I s')
    (as : List α) {s t : σ} (hI : I s) (h : M.run s as = some t) : I t := by
  induction as generalizing s with
  | nil =>
      simp only [run, Option.some.injEq] at h
      exact h ▸ hI
  | cons a as ih =>
      obtain ⟨s', hs, h'⟩ := run_cons_eq_some h
      exact ih (hstep s a s' hI hs) h'

/-- **Invariant rule with the past.** The same for a property of the state together with the actions
taken so far. -/
theorem run_invariant_past {I : List α → σ → Prop}
    (hstep : ∀ past s a s', I past s → M.step s a = some s' → I (past ++ [a]) s')
    (as : List α) {past : List α} {s t : σ} (hI : I past s) (h : M.run s as = some t) :
    I (past ++ as) t := by
  induction as generalizing past s with
  | nil =>
      simp only [run, Option.some.injEq] at h
      rw [List.append_nil]
      exact h ▸ hI
  | cons a as ih =>
      obtain ⟨s', hs, h'⟩ := run_cons_eq_some h
      have hall := ih (hstep past s a s' hI hs) h'
      rwa [List.append_assoc, List.singleton_append] at hall

/-- The same from the start of a run, where no action has been taken. -/
theorem run_invariant_past_nil {I : List α → σ → Prop}
    (hstep : ∀ past s a s', I past s → M.step s a = some s' → I (past ++ [a]) s')
    (as : List α) {s t : σ} (hI : I [] s) (h : M.run s as = some t) : I as t :=
  run_invariant_past hstep as hI h

theorem run_append (s : σ) (as bs : List α) :
    M.run s (as ++ bs) = (M.run s as).bind fun t => M.run t bs := by
  induction as generalizing s with
  | nil => rfl
  | cons a as ih =>
      simp only [List.cons_append, run]
      cases M.step s a with
      | none => rfl
      | some s' => exact ih s'

/-- Some run from `s` ends in a state with the property. -/
def CanReach (M : Machine σ α) (P : σ → Prop) (s : σ) : Prop := ∃ as t, M.run s as = some t ∧ P t

theorem canReach_of_self {P : σ → Prop} {s : σ} (h : P s) : M.CanReach P s := ⟨[], s, rfl, h⟩

/-- A step towards the property. -/
theorem canReach_of_step {P : σ → Prop} {s s' : σ} {a : α} (hstep : M.step s a = some s')
    (h : M.CanReach P s') : M.CanReach P s := by
  obtain ⟨as, t, hrun, ht⟩ := h
  refine ⟨a :: as, t, ?_, ht⟩
  simp only [run, hstep]
  exact hrun

/-- An invariant that excludes the property is never left for it. -/
theorem not_canReach_of_invariant {I P : σ → Prop}
    (hstep : ∀ s a s', I s → M.step s a = some s' → I s') (hP : ∀ s, I s → ¬ P s) {s : σ}
    (h : I s) : ¬ M.CanReach P s := by
  rintro ⟨as, t, hrun, ht⟩
  exact hP t (run_invariant hstep as h hrun) ht

theorem AllStates.head {P : σ → Prop} {s : σ} {as : List α} (h : M.AllStates P s as) : P s := by
  cases as with
  | nil => exact h
  | cons a as => exact h.1

/-- What holds in every state passed holds in the last one. -/
theorem AllStates.of_run {P : σ → Prop} {s t : σ} {as : List α} (h : M.AllStates P s as)
    (hrun : M.run s as = some t) : P t := by
  induction as generalizing s with
  | nil =>
      simp only [run, Option.some.injEq] at hrun
      exact hrun ▸ h
  | cons a as ih =>
      obtain ⟨s', hs, hrun'⟩ := run_cons_eq_some hrun
      exact ih (h.2 s' hs) hrun'

/-- **Exactness rule.** Where a condition on the state before a step decides whether the step keeps
the property, a run has the property throughout exactly when all its steps meet the condition. -/
theorem allStates_iff_allSteps {J P : σ → Prop} {G : σ → α → Prop}
    (hJ : ∀ s a s', J s → P s → G s a → M.step s a = some s' → J s')
    (hstep : ∀ s a s', J s → P s → M.step s a = some s' → (P s' ↔ G s a))
    (as : List α) {s : σ} (hj : J s) (hP : P s) : M.AllStates P s as ↔ M.AllSteps G s as := by
  induction as generalizing s with
  | nil => exact iff_of_true hP trivial
  | cons a as ih =>
      constructor
      · rintro ⟨-, h⟩ s' hs
        -- the property after the step gives the condition, and this keeps the invariant
        have hP' : P s' := (h s' hs).head
        have hG : G s a := (hstep s a s' hj hP hs).1 hP'
        exact ⟨hG, (ih (hJ s a s' hj hP hG hs) hP').1 (h s' hs)⟩
      · intro h
        refine ⟨hP, ?_⟩
        intro s' hs
        obtain ⟨hG, hGs⟩ := h s' hs
        have hP' : P s' := (hstep s a s' hj hP hs).2 hG
        exact (ih (hJ s a s' hj hP hG hs) hP').2 hGs

/-- Two conditions that agree on every step an invariant allows agree along runs. -/
theorem allSteps_congr {J : σ → Prop} {G H : σ → α → Prop}
    (hJ : ∀ s a s', J s → G s a → M.step s a = some s' → J s')
    (hstep : ∀ s a s', J s → M.step s a = some s' → (G s a ↔ H s a))
    (as : List α) {s : σ} (hj : J s) : M.AllSteps G s as ↔ M.AllSteps H s as := by
  induction as generalizing s with
  | nil => exact Iff.rfl
  | cons a as ih =>
      constructor
      · intro h s' hs
        obtain ⟨hG, hGs⟩ := h s' hs
        have hH : H s a := (hstep s a s' hj hs).1 hG
        exact ⟨hH, (ih (hJ s a s' hj hG hs)).1 hGs⟩
      · intro h s' hs
        obtain ⟨hH, hHs⟩ := h s' hs
        have hG : G s a := (hstep s a s' hj hs).2 hH
        exact ⟨hG, (ih (hJ s a s' hj hG hs)).2 hHs⟩

end Machine

end Lib
