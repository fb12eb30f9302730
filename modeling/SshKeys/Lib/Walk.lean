import Mathlib.Data.Fintype.EquivFin
import Mathlib.Logic.Relation
import Mathlib.Order.WellFounded
import Mathlib.SetTheory.Cardinal.NatCard

/-!
# Walks along a function

A walk applies a function again and again until it comes to a stop symbol, and records what it
visits. `walk` computes it with fuel, `Visits` is the walk itself. A walk that ends visits nothing
twice (`Visits.nodup`), and over a finite type it ends exactly when nothing on its way comes after
itself (`exists_visits_iff`).
-/

set_option autoImplicit false

namespace Lib.Walk

open Relation

universe u

variable {α : Type u} {f : α → α} {stop : α}

/-- One step of the walk: there is none from the stop symbol. -/
def Next (f : α → α) (stop : α) (a b : α) : Prop := a ≠ stop ∧ f a = b

/-- The walk from `a` visits exactly the symbols of the list, in its order, and then stops. -/
inductive Visits (f : α → α) (stop : α) : α → List α → Prop where
  | stop : Visits f stop stop []
  | step {a : α} {visited : List α} (hne : a ≠ stop) (h : Visits f stop (f a) visited) :
      Visits f stop a (a :: visited)

/-- The walk with at most `fuel` looks at a symbol. `none` is a walk that did not end by then. -/
def walk [DecidableEq α] (f : α → α) (stop : α) : Nat → α → Option (List α)
  | 0, _ => none
  | fuel + 1, a => if a = stop then some [] else (walk f stop fuel (f a)).map (a :: ·)

/-- The walk with fuel finds what the walk visits. -/
theorem exists_walk_eq_some_iff [DecidableEq α] {a : α} {visited : List α} :
    (∃ fuel, walk f stop fuel a = some visited) ↔ Visits f stop a visited := by
  constructor
  · rintro ⟨fuel, h⟩
    induction fuel generalizing a visited with
    | zero => cases h
    | succ fuel ih =>
        rw [walk] at h
        split at h
        · next ha =>
            cases h
            rw [ha]
            exact .stop
        · next ha =>
            obtain ⟨visited', hvisited', rfl⟩ := Option.map_eq_some_iff.1 h
            exact .step ha (ih hvisited')
  · intro h
    induction h with
    | stop => exact ⟨1, by rw [walk, if_pos rfl]⟩
    | step hne _ ih =>
        obtain ⟨fuel, hfuel⟩ := ih
        exact ⟨fuel + 1, by rw [walk, if_neg hne, hfuel]; rfl⟩

namespace Visits

variable {a b : α} {visited : List α}

theorem of_next (h : Visits f stop a visited) (hnext : Next f stop a b) :
    ∃ visited', visited = a :: visited' ∧ Visits f stop b visited' := by
  obtain ⟨hne, rfl⟩ := hnext
  cases h with
  | stop => exact absurd rfl hne
  | step _ h => exact ⟨_, rfl, h⟩

theorem unique {visited' : List α} (h : Visits f stop a visited)
    (h' : Visits f stop a visited') : visited = visited' := by
  induction h generalizing visited' with
  | stop =>
      cases h' with
      | stop => rfl
      | step hne _ => exact absurd rfl hne
  | step hne _ ih =>
      cases h' with
      | stop => exact absurd rfl hne
      | step _ h' => rw [ih h']

/-- Later on the way there is less to visit. -/
theorem exists_shorter (h : Visits f stop a visited) (hlater : TransGen (Next f stop) a b) :
    ∃ visited', Visits f stop b visited' ∧ visited'.length < visited.length := by
  induction hlater with
  | single hnext =>
      obtain ⟨visited', rfl, h'⟩ := h.of_next hnext
      exact ⟨visited', h', Nat.lt_succ_self _⟩
  | tail _ hnext ih =>
      obtain ⟨mid, hmid, hlt⟩ := ih
      obtain ⟨visited', rfl, h'⟩ := hmid.of_next hnext
      exact ⟨visited', h', Nat.lt_of_succ_lt hlt⟩

/-- Where a walk that ends begins, it does not come again. -/
theorem not_transGen_self (h : Visits f stop a visited) : ¬ TransGen (Next f stop) a a := by
  intro hcycle
  obtain ⟨visited', h', hlt⟩ := h.exists_shorter hcycle
  rw [h.unique h'] at hlt
  exact absurd hlt (Nat.lt_irrefl _)

theorem reaches (h : Visits f stop a visited) (hmem : b ∈ visited) :
    ReflTransGen (Next f stop) a b := by
  induction h with
  | stop => cases hmem
  | step hne _ ih =>
      rcases List.mem_cons.1 hmem with rfl | hmem
      · exact .refl
      · exact .head ⟨hne, rfl⟩ (ih hmem)

/-- **A walk that ends visits nothing twice.** -/
theorem nodup (h : Visits f stop a visited) : visited.Nodup := by
  induction h with
  | stop => exact List.nodup_nil
  | step hne h ih =>
      refine List.nodup_cons.2 ⟨?_, ih⟩
      intro hmem
      exact (Visits.step hne h).not_transGen_self (.head' ⟨hne, rfl⟩ (h.reaches hmem))

theorem exists_of_reaches (h : Visits f stop a visited) (hlater : ReflTransGen (Next f stop) a b) :
    ∃ visited', Visits f stop b visited' := by
  rcases reflTransGen_iff_eq_or_transGen.1 hlater with rfl | hlater
  · exact ⟨visited, h⟩
  · obtain ⟨visited', h', -⟩ := h.exists_shorter hlater
    exact ⟨visited', h'⟩

end Visits

/-- More fuel than there are symbols to visit is enough. -/
theorem Visits.walk_eq [DecidableEq α] {a : α} {visited : List α} (h : Visits f stop a visited)
    {fuel : Nat} (hfuel : visited.length < fuel) : walk f stop fuel a = some visited := by
  induction h generalizing fuel with
  | stop =>
      obtain ⟨fuel, rfl⟩ := Nat.exists_eq_succ_of_ne_zero (Nat.ne_of_gt hfuel)
      rw [walk, if_pos rfl]
  | step hne _ ih =>
      obtain ⟨fuel, rfl⟩ := Nat.exists_eq_succ_of_ne_zero (Nat.ne_zero_of_lt hfuel)
      rw [walk, if_neg hne, ih (Nat.lt_of_succ_lt_succ hfuel)]
      rfl

/-- **Enough fuel.** With more fuel than there are symbols, the walk with fuel is the walk. -/
theorem walk_eq_some_iff [DecidableEq α] [Finite α] {a : α} {visited : List α} {fuel : Nat}
    (hfuel : Nat.card α < fuel) : walk f stop fuel a = some visited ↔ Visits f stop a visited := by
  constructor
  · intro h
    exact exists_walk_eq_some_iff.1 ⟨fuel, h⟩
  · intro h
    exact h.walk_eq (Nat.lt_of_le_of_lt h.nodup.length_le_natCard hfuel)

/-- **Ending.** Over a finite type a walk ends exactly when nothing on its way comes after
itself. -/
theorem exists_visits_iff [Finite α] {a : α} :
    (∃ visited, Visits f stop a visited) ↔
      ∀ b, ReflTransGen (Next f stop) a b → ¬ TransGen (Next f stop) b b := by
  constructor
  · rintro ⟨visited, h⟩ b hb
    obtain ⟨visited', h'⟩ := h.exists_of_reaches hb
    exact h'.not_transGen_self
  · intro h
    -- what comes later on the way is a well-founded order on what is on it
    let Later : {b // ReflTransGen (Next f stop) a b} → {b // ReflTransGen (Next f stop) a b} →
      Prop := fun c b => TransGen (Next f stop) b.1 c.1
    have htrans : IsTrans _ Later := ⟨fun _ _ _ hab hbc => hbc.trans hab⟩
    have hirrefl : Std.Irrefl Later := ⟨fun b => h b.1 b.2⟩
    have hwf : WellFounded Later := Finite.wellFounded_of_trans_of_irrefl Later
    have hends (b : {b // ReflTransGen (Next f stop) a b}) :
        ∃ visited, Visits f stop b.1 visited := by
      induction b using hwf.induction with
      | _ b ih =>
          by_cases hb : b.1 = stop
          · exact ⟨[], by rw [hb]; exact .stop⟩
          · have hnext : Next f stop b.1 (f b.1) := ⟨hb, rfl⟩
            obtain ⟨visited, hvisited⟩ := ih ⟨f b.1, b.2.tail hnext⟩ (.single hnext)
            exact ⟨_, .step hb hvisited⟩
    exact hends ⟨a, .refl⟩

end Lib.Walk
