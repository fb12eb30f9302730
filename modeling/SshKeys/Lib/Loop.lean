import Mathlib.Tactic.Common

/-!
# Loops with a measure

A loop takes steps until its step function has none left, and records events on the way. The record
carries a measure that every step makes smaller, so that a run always ends and can be computed with
the measure of the first state as fuel (`Loop.run`). `run_of_step` and `run_of_stop` are its
equations, without fuel; `step_run` says that it stops only where no step is left, and `run_related`
carries a relation between the states of two loops through their runs.
-/

set_option autoImplicit false

namespace Lib

universe u v w

/-- A loop over states `σ` with events `η`, and why it ends. -/
structure Loop (σ : Type u) (η : Type v) where
  step : σ → Option (σ × List η)
  measure : σ → Nat
  decreases : ∀ {s s' : σ} {es : List η}, step s = some (s', es) → measure s' < measure s

namespace Loop

variable {σ : Type u} {η : Type v} (L : Loop σ η)

/-- At most `fuel` steps from `s`: the state reached and the events. -/
def runFor : Nat → σ → σ × List η
  | 0, s => (s, [])
  | fuel + 1, s =>
      match L.step s with
      | none => (s, [])
      | some (s', es) => ((runFor fuel s').1, es ++ (runFor fuel s').2)

/-- All steps from `s`. -/
def run (s : σ) : σ × List η := L.runFor (L.measure s) s

variable {L}

theorem runFor_of_stop {s : σ} (h : L.step s = none) (fuel : Nat) : L.runFor fuel s = (s, []) := by
  cases fuel with
  | zero => rfl
  | succ fuel => rw [runFor, h]

/-- Any two amounts of fuel that cover the measure give the same run. -/
theorem runFor_eq_of_measure_le {s : σ} {fuel fuel' : Nat} (h : L.measure s ≤ fuel)
    (h' : L.measure s ≤ fuel') : L.runFor fuel s = L.runFor fuel' s := by
  induction fuel generalizing s fuel' with
  | zero =>
      cases hs : L.step s with
      | none => rw [runFor_of_stop hs, runFor_of_stop hs]
      | some next =>
          have hlt : L.measure next.1 < L.measure s := L.decreases hs
          omega
  | succ fuel ih =>
      cases hs : L.step s with
      | none => rw [runFor_of_stop hs, runFor_of_stop hs]
      | some next =>
          rcases next with ⟨s', es⟩
          have hlt : L.measure s' < L.measure s := L.decreases hs
          cases fuel' with
          | zero => omega
          | succ fuel' =>
              have hrun : L.runFor fuel s' = L.runFor fuel' s' := ih (by omega) (by omega)
              simp only [runFor, hs, hrun]

theorem run_of_stop {s : σ} (h : L.step s = none) : L.run s = (s, []) :=
  runFor_of_stop h _

/-- A run is its first step and the run from there. -/
theorem run_of_step {s s' : σ} {es : List η} (h : L.step s = some (s', es)) :
    L.run s = ((L.run s').1, es ++ (L.run s').2) := by
  have hlt : L.measure s' < L.measure s := L.decreases h
  obtain ⟨n, hn⟩ : ∃ n, L.measure s = n + 1 := ⟨L.measure s - 1, by omega⟩
  have hrun : L.runFor n s' = L.run s' := runFor_eq_of_measure_le (by omega) (Nat.le_refl _)
  rw [run, hn, runFor, h]
  simp only [hrun]

/-- **Termination**: where a run ends, no step is left. -/
theorem step_run (s : σ) : L.step (L.run s).1 = none := by
  induction hm : L.measure s using Nat.strongRecOn generalizing s with
  | _ m ih =>
      cases hs : L.step s with
      | none =>
          rw [run_of_stop hs]
          exact hs
      | some next =>
          rcases next with ⟨s', es⟩
          rw [run_of_step hs]
          exact ih (L.measure s') (hm ▸ L.decreases hs) s' rfl

/-- **Simulation.** Two loops take the same steps, as long as the events satisfy `P`. If all events
of the first run do, the runs end in related states with the same events. -/
theorem run_related {τ : Type w} {K : Loop τ η} {R : σ → τ → Prop} {P : η → Prop}
    (hstop : ∀ {s t}, R s t → L.step s = none → K.step t = none)
    (hstep : ∀ {s t s' es}, R s t → L.step s = some (s', es) → (∀ e ∈ es, P e) →
      ∃ t', K.step t = some (t', es) ∧ R s' t')
    {s : σ} {t : τ} (h : R s t) (hall : ∀ e ∈ (L.run s).2, P e) :
    R (L.run s).1 (K.run t).1 ∧ (K.run t).2 = (L.run s).2 := by
  induction hm : L.measure s using Nat.strongRecOn generalizing s t with
  | _ m ih =>
      cases hs : L.step s with
      | none =>
          rw [run_of_stop hs, run_of_stop (hstop h hs)]
          exact ⟨h, rfl⟩
      | some next =>
          rcases next with ⟨s', es⟩
          rw [run_of_step hs] at hall ⊢
          obtain ⟨t', ht, h'⟩ :=
            hstep h hs fun e he => hall e (List.mem_append_left _ he)
          obtain ⟨hrel, hevents⟩ := ih (L.measure s') (hm ▸ L.decreases hs) h'
            (fun e he => hall e (List.mem_append_right _ he)) rfl
          rw [run_of_step ht]
          exact ⟨hrel, congrArg (es ++ ·) hevents⟩

end Loop

end Lib
