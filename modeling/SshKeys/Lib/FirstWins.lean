import Mathlib.Data.List.Perm.Basic
import Mathlib.Data.List.Nodup

/-!
# Lists that keep the first element of every key

An ordered collection in which no two elements share a key, filled by appending: an element whose
key is already there is dropped (`insertNew`), so that the first element of a key stays. The
collection after a sequence of insertions is the old one followed by the first occurrences
(`keepFirst`) of the new keys, in their order (`foldl_insertNew`), and has for every key the element
that came first with it (`find?_foldl_insertNew`). Its set of keys does not depend on the order of
the insertions (`mem_keys_foldl_insertNew_of_perm`).
-/

set_option autoImplicit false

namespace Lib.FirstWins

universe u v

variable {α : Type u} {κ : Type v} [DecidableEq κ] (key : α → κ)

/-- The keys of a collection, in its order. -/
abbrev keys (l : List α) : List κ := l.map key

/-- Append an element unless its key is already there. -/
def insertNew (l : List α) (a : α) : List α := if key a ∈ keys key l then l else l ++ [a]

/-- The elements whose key did not occur before, in their order. -/
def keepFirst : List α → List α
  | [] => []
  | a :: as => a :: (keepFirst as).filter fun b => key b ≠ key a

variable {key}

theorem insertNew_of_mem {l : List α} {a : α} (h : key a ∈ keys key l) :
    insertNew key l a = l := if_pos h

theorem insertNew_of_notMem {l : List α} {a : α} (h : key a ∉ keys key l) :
    insertNew key l a = l ++ [a] := if_neg h

theorem mem_keys_insertNew {l : List α} {a : α} {k : κ} :
    k ∈ keys key (insertNew key l a) ↔ k ∈ keys key l ∨ k = key a := by
  by_cases h : key a ∈ keys key l
  · rw [insertNew_of_mem h]
    constructor
    · exact Or.inl
    · rintro (hk | rfl)
      · exact hk
      · exact h
  · rw [insertNew_of_notMem h]
    simp

theorem nodup_insertNew {l : List α} {a : α} (h : (keys key l).Nodup) :
    (keys key (insertNew key l a)).Nodup := by
  by_cases ha : key a ∈ keys key l
  · rw [insertNew_of_mem ha]
    exact h
  · rw [insertNew_of_notMem ha, keys, List.map_append]
    apply List.Nodup.append h (by simp)
    intro k hk hk'
    simp only [List.map_cons, List.map_nil, List.mem_singleton] at hk'
    exact ha (hk' ▸ hk)

/-- Filtering by key commutes with keeping the first occurrences. -/
theorem keepFirst_filter (p : κ → Bool) (as : List α) :
    keepFirst key (as.filter (p ∘ key)) = (keepFirst key as).filter (p ∘ key) := by
  induction as with
  | nil => rfl
  | cons a as ih =>
      by_cases ha : (p ∘ key) a = true
      · rw [List.filter_cons_of_pos ha, keepFirst, keepFirst, List.filter_cons_of_pos ha, ih,
          List.filter_filter, List.filter_filter]
        simp only [Bool.and_comm]
      · rw [List.filter_cons_of_neg ha, keepFirst, List.filter_cons_of_neg ha, ih,
          List.filter_filter]
        apply List.filter_congr
        intro b _
        by_cases hb : (p ∘ key) b = true
        · have hne : key b ≠ key a := by
            intro he
            apply ha
            simpa [he] using hb
          simp [hne]
        · have hb' : (p ∘ key) b = false := by simpa using hb
          rw [hb', Bool.false_and]

/-- **The collection after a sequence of insertions**: the old one, then the first occurrences of
the keys it did not have. -/
theorem foldl_insertNew (as l : List α) :
    as.foldl (insertNew key) l =
      l ++ keepFirst key (as.filter fun a => decide (key a ∉ keys key l)) := by
  induction as generalizing l with
  | nil => simp [keepFirst]
  | cons a as ih =>
      rw [List.foldl_cons, ih]
      by_cases ha : key a ∈ keys key l
      · rw [insertNew_of_mem ha, List.filter_cons_of_neg (by simpa using ha)]
      · rw [insertNew_of_notMem ha, List.filter_cons_of_pos (by simpa using ha), keepFirst,
          List.append_assoc, List.singleton_append]
        congr 2
        have hsplit : (as.filter fun b => decide (key b ∉ keys key (l ++ [a]))) =
            (as.filter fun b => decide (key b ∉ keys key l)).filter
              ((fun k => decide (k ≠ key a)) ∘ key) := by
          rw [List.filter_filter]
          apply List.filter_congr
          intro b _
          by_cases hb : key b = key a <;> simp [hb]
        rw [hsplit, keepFirst_filter]
        rfl

theorem mem_keys_foldl_insertNew {as l : List α} {k : κ} :
    k ∈ keys key (as.foldl (insertNew key) l) ↔ k ∈ keys key l ∨ k ∈ keys key as := by
  induction as generalizing l with
  | nil => simp
  | cons a as ih =>
      have hcons : k ∈ keys key (a :: as) ↔ k = key a ∨ k ∈ keys key as := List.mem_cons
      rw [List.foldl_cons, ih, mem_keys_insertNew, hcons, or_assoc]

/-- The set of keys does not depend on the order of the insertions. -/
theorem mem_keys_foldl_insertNew_of_perm {as bs l : List α} (h : as.Perm bs) {k : κ} :
    k ∈ keys key (as.foldl (insertNew key) l) ↔ k ∈ keys key (bs.foldl (insertNew key) l) := by
  rw [mem_keys_foldl_insertNew, mem_keys_foldl_insertNew, (h.map key).mem_iff]

theorem nodup_foldl_insertNew {as l : List α} (h : (keys key l).Nodup) :
    (keys key (as.foldl (insertNew key) l)).Nodup := by
  induction as generalizing l with
  | nil => exact h
  | cons a as ih => exact ih (nodup_insertNew h)

/-- **Lookup rule.** After a sequence of insertions the collection has for every key the element
that came first with it. -/
theorem find?_foldl_insertNew (as l : List α) (k : κ) :
    (as.foldl (insertNew key) l).find? (fun a => key a = k) =
      (l ++ as).find? (fun a => key a = k) := by
  induction as generalizing l with
  | nil => rw [List.foldl_nil, List.append_nil]
  | cons a as ih =>
      rw [List.foldl_cons, ih]
      by_cases ha : key a ∈ keys key l
      · rw [insertNew_of_mem ha, List.find?_append, List.find?_append]
        cases hfind : l.find? (fun b => key b = k) with
        | some b => rfl
        | none =>
            -- the key that is looked up is not in the list, so it is not the one that is dropped
            have hne : key a ≠ k := by
              rintro rfl
              obtain ⟨b, hb, hkey⟩ := List.mem_map.1 ha
              have hnot := List.find?_eq_none.1 hfind b hb
              rw [decide_eq_true_iff] at hnot
              exact hnot hkey
            rw [List.find?_cons_of_neg (by simpa using hne)]
      · rw [insertNew_of_notMem ha, List.append_assoc, List.singleton_append]

end Lib.FirstWins
