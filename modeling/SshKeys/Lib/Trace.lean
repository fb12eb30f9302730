import Mathlib.Data.List.Induction

/-!
# Traces with a past

Properties of an event together with the events before it (`Always`), for traces that grow at the
end. A property that every new event has keeps holding (`always_concat`). If every event of one kind
comes directly after one of another kind, there are no more of the first than of the second
(`countP_le_of_preceded`).
-/

set_option autoImplicit false

namespace Lib.Trace

universe u

variable {ε : Type u}

/-- Every event of the trace satisfies `P` together with the events before it. -/
def Always (P : List ε → ε → Prop) (l : List ε) : Prop :=
  ∀ pre e post, l = pre ++ e :: post → P pre e

variable {P Q : List ε → ε → Prop} {l es : List ε}

theorem always_nil : Always P [] := by
  intro pre e post h
  simp at h

/-- A trace grows by an event that has the property. -/
theorem always_concat {e : ε} : Always P (l ++ [e]) ↔ Always P l ∧ P l e := by
  constructor
  · intro h
    refine ⟨fun pre e' post hl => h pre e' (post ++ [e]) ?_, h l e [] rfl⟩
    rw [hl, List.append_assoc, List.cons_append]
  · rintro ⟨hl, he⟩ pre e' post h
    rcases List.append_eq_append_iff.1 h with ⟨mid, hpre, hlast⟩ | ⟨mid, hpre, hlast⟩
    · cases mid with
      | nil =>
          simp only [List.nil_append, List.cons.injEq, List.append_nil] at hlast hpre
          rw [hpre, ← hlast.1]
          exact he
      | cons x mid => simp at hlast
    · cases mid with
      | nil =>
          simp only [List.nil_append, List.cons.injEq, List.append_nil] at hlast hpre
          rw [← hpre, hlast.1]
          exact he
      | cons x mid =>
          simp only [List.cons_append, List.cons.injEq] at hlast
          rw [hlast.1]
          exact hl pre x mid hpre

theorem Always.mono (h : Always P l) (hPQ : ∀ pre e, P pre e → Q pre e) : Always Q l :=
  fun pre e post hl => hPQ pre e (h pre e post hl)

/-- Events that have the property after any past. -/
theorem Always.append (h : Always P l) (hes : ∀ e ∈ es, ∀ pre, P pre e) : Always P (l ++ es) := by
  induction es generalizing l with
  | nil => rwa [List.append_nil]
  | cons e es ih =>
      have hl : Always P (l ++ [e]) := always_concat.2 ⟨h, hes e List.mem_cons_self l⟩
      have hrest := ih hl fun e' he' => hes e' (List.mem_cons_of_mem _ he')
      rwa [List.append_assoc, List.singleton_append] at hrest

/-- **Counting rule.** When every `p` comes directly after a `q`, no trace has more of the first. -/
theorem countP_le_of_preceded {p q : ε → Bool} (hpq : ∀ e, q e = true → p e = false)
    (h : Always (fun pre e => p e = true → ∃ before e', pre = before ++ [e'] ∧ q e' = true) l) :
    l.countP p ≤ l.countP q ∧
      ∀ before e, l = before ++ [e] → q e = true → l.countP p + 1 ≤ l.countP q := by
  induction l using List.reverseRecOn with
  | nil => simp
  | append_singleton l e ih =>
      obtain ⟨hl, he⟩ := always_concat.1 h
      obtain ⟨hle, hlast⟩ := ih hl
      have hconcat {before : List ε} {e' : ε} (heq : l ++ [e] = before ++ [e']) : e = e' := by
        simpa using congrArg List.getLast? heq
      rw [List.countP_append, List.countP_append, List.countP_singleton, List.countP_singleton]
      cases hq : q e with
      | true =>
          rw [hpq e hq]
          simp only [if_true, Bool.false_eq_true, if_false]
          exact ⟨by omega, fun _ _ _ _ => by omega⟩
      | false =>
          refine ⟨?_, fun before e' heq hq' => ?_⟩
          · cases hp : p e with
            | false => simpa using hle
            | true =>
                obtain ⟨before, e', hpre, hq'⟩ := he hp
                have hmore := hlast before e' hpre hq'
                simpa using hmore
          · rw [← hconcat heq, hq] at hq'
            cases hq'

end Lib.Trace
