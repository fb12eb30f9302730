import Mathlib.Data.List.Infix

/-!
# Lines and fields of a text

A text is a list of symbols, one of which ends a line. `lines` are the lines without that symbol;
the last one may lack it. `terminate` ends the last line. What is written behind a terminated text
becomes lines of its own (`lines_append`), and terminating a text does not change its lines
(`lines_terminate`). The fields between a separating symbol are those of `List.splitOn`;
`splitOn_eq_pair_iff` says when there are two, and `splitOn_blank_iff` when lines that are written
with an empty one between two are read as such. What does not contain the symbol lies on one side of
each place where it stands (`infix_append_cons_iff`).
-/

set_option autoImplicit false

namespace Lib.Lines

universe u

variable {α : Type u} [DecidableEq α] {sep : α}

/-- The lines of a text, without the symbol that ends them. -/
def lines (sep : α) : List α → List (List α)
  | [] => []
  | a :: as =>
      if a = sep then [] :: lines sep as
      else
        match lines sep as with
        | [] => [[a]]
        | l :: ls => (a :: l) :: ls

/-- No line of the text is left open. -/
def Terminated (sep : α) (as : List α) : Prop := as = [] ∨ as.getLast? = some sep

/-- The text with its last line ended. -/
def terminate (sep : α) (as : List α) : List α :=
  if as ≠ [] ∧ as.getLast? ≠ some sep then as ++ [sep] else as

example : lines 0 [1, 2, 0, 0, 3] = [[1, 2], [], [3]] := by decide

theorem lines_cons_of_ne {a : α} (h : a ≠ sep) (as : List α) :
    lines sep (a :: as) = match lines sep as with
      | [] => [[a]]
      | l :: ls => (a :: l) :: ls := by
  rw [lines, if_neg h]

theorem lines_append_sep_ne_nil (as : List α) : lines sep (as ++ [sep]) ≠ [] := by
  cases as with
  | nil => simp [lines]
  | cons a as =>
      rw [List.cons_append, lines]
      split
      · simp
      · split <;> simp

theorem lines_append_sep_cons (as bs : List α) :
    lines sep (as ++ sep :: bs) = lines sep (as ++ [sep]) ++ lines sep bs := by
  induction as with
  | nil => simp [lines]
  | cons a as ih =>
      by_cases ha : a = sep
      · simp only [List.cons_append, lines, if_pos ha, ih]
      · -- the first line is not behind the symbol
        have hne : lines sep (as ++ [sep]) ≠ [] := lines_append_sep_ne_nil as
        obtain ⟨l, ls, hl⟩ := List.exists_cons_of_ne_nil hne
        rw [List.cons_append, List.cons_append, lines_cons_of_ne ha, lines_cons_of_ne ha, ih, hl]
        rfl

/-- **Written behind a terminated text**, a text keeps its lines. -/
theorem lines_append {as : List α} (h : Terminated sep as) (bs : List α) :
    lines sep (as ++ bs) = lines sep as ++ lines sep bs := by
  rcases h with rfl | h
  · rfl
  · obtain ⟨as', rfl⟩ := List.getLast?_eq_some_iff.1 h
    rw [List.append_assoc]
    exact lines_append_sep_cons as' bs

theorem lines_append_sep {as : List α} (hne : as ≠ []) (h : as.getLast? ≠ some sep) :
    lines sep (as ++ [sep]) = lines sep as := by
  induction as with
  | nil => exact absurd rfl hne
  | cons a as ih =>
      cases as with
      | nil =>
          have ha : a ≠ sep := fun heq => h (congrArg some heq)
          simp [lines, ha]
      | cons a' as =>
          rw [List.getLast?_cons_cons] at h
          have hlines := ih (List.cons_ne_nil _ _) h
          by_cases ha : a = sep
          · rw [List.cons_append, lines, lines, if_pos ha, if_pos ha, hlines]
          · rw [List.cons_append, lines_cons_of_ne ha, lines_cons_of_ne ha, hlines]

theorem lines_terminate (as : List α) : lines sep (terminate sep as) = lines sep as := by
  rw [terminate]
  split
  · next h => exact lines_append_sep h.1 h.2
  · rfl

theorem terminated_terminate (as : List α) : Terminated sep (terminate sep as) := by
  rw [terminate]
  split
  · exact Or.inr (List.getLast?_concat ..)
  · next h =>
      by_cases hne : as = []
      · exact Or.inl hne
      · exact Or.inr (not_not.1 fun hlast => h ⟨hne, hlast⟩)

theorem prefix_terminate (as : List α) : as <+: terminate sep as := by
  rw [terminate]
  split
  · exact List.prefix_append _ _
  · exact List.prefix_refl _

/-- Without the symbol there is one line. -/
theorem lines_of_notMem {as : List α} (hne : as ≠ []) (h : sep ∉ as) : lines sep as = [as] := by
  induction as with
  | nil => exact absurd rfl hne
  | cons a as ih =>
      have ha : a ≠ sep := fun heq => h (heq ▸ List.mem_cons_self)
      rw [lines_cons_of_ne ha]
      cases as with
      | nil => rfl
      | cons a' as =>
          rw [ih (List.cons_ne_nil _ _) fun hmem => h (List.mem_cons_of_mem a hmem)]

/-- A text that begins with symbols of a line has a first line that begins with them. -/
theorem exists_lines_append {as : List α} (hne : as ≠ []) (h : sep ∉ as) (bs : List α) :
    ∃ l ls, lines sep (as ++ bs) = (as ++ l) :: ls := by
  induction as with
  | nil => exact absurd rfl hne
  | cons a as ih =>
      have ha : a ≠ sep := fun heq => h (heq ▸ List.mem_cons_self)
      have has : sep ∉ as := fun hmem => h (List.mem_cons_of_mem a hmem)
      rw [List.cons_append, lines_cons_of_ne ha]
      cases as with
      | nil =>
          cases hl : lines sep bs with
          | nil => exact ⟨[], [], by simp [hl]⟩
          | cons l ls => exact ⟨l, ls, by simp [hl]⟩
      | cons a' as =>
          obtain ⟨l, ls, hl⟩ := ih (List.cons_ne_nil _ _) has
          exact ⟨l, ls, by rw [hl]; rfl⟩

omit [DecidableEq α] in
theorem prefix_of_prefix_append_cons {xs as bs : List α} (h : sep ∉ xs)
    (hfront : xs <+: as ++ sep :: bs) : xs <+: as := by
  induction as generalizing xs with
  | nil =>
      cases xs with
      | nil => exact List.prefix_refl _
      | cons x xs =>
          rw [List.nil_append, List.cons_prefix_cons] at hfront
          exact absurd (hfront.1 ▸ List.mem_cons_self) h
  | cons a as ih =>
      cases xs with
      | nil => exact List.nil_prefix
      | cons x xs =>
          rw [List.cons_append, List.cons_prefix_cons] at hfront
          rw [List.cons_prefix_cons]
          exact ⟨hfront.1, ih (fun hmem => h (List.mem_cons_of_mem x hmem)) hfront.2⟩

omit [DecidableEq α] in
/-- What does not contain a symbol is on one side of it. -/
theorem infix_append_cons_iff {xs as bs : List α} (h : sep ∉ xs) :
    xs <:+: as ++ sep :: bs ↔ xs <:+: as ∨ xs <:+: bs := by
  induction as with
  | nil =>
      rw [List.nil_append, List.infix_cons_iff, List.infix_nil]
      apply or_congr ?_ Iff.rfl
      constructor
      · intro hfront
        have hnil : xs <+: [] := prefix_of_prefix_append_cons h hfront
        exact List.prefix_nil.1 hnil
      · rintro rfl
        exact List.nil_prefix
  | cons a as ih =>
      rw [List.cons_append, List.infix_cons_iff, ih, List.infix_cons_iff, or_assoc]
      apply or_congr ?_ Iff.rfl
      constructor
      · intro hfront
        rw [← List.cons_append] at hfront
        exact prefix_of_prefix_append_cons h hfront
      · exact fun hfront => hfront.trans (List.prefix_append (a :: as) _)

/-- What does not contain the symbol was in the text before its last line was ended. -/
theorem infix_of_infix_terminate {xs as : List α} (h : sep ∉ xs) (hin : xs <:+: terminate sep as) :
    xs <:+: as := by
  rw [terminate] at hin
  split at hin
  · rcases (infix_append_cons_iff h).1 hin with hin | hin
    · exact hin
    · rw [List.infix_nil.1 hin]
      exact List.nil_infix
  · exact hin

omit [DecidableEq α] in
/-- What does not contain the symbol is in a terminated text, or in what follows it. -/
theorem infix_append_of_terminated {xs as bs : List α} (h : sep ∉ xs) (has : Terminated sep as)
    (hin : xs <:+: as ++ bs) : xs <:+: as ∨ xs <:+: bs := by
  rcases has with rfl | hlast
  · exact Or.inr hin
  · obtain ⟨as', rfl⟩ := List.getLast?_eq_some_iff.1 hlast
    rw [List.append_assoc, List.singleton_append, infix_append_cons_iff h] at hin
    rcases hin with hin | hin
    · exact Or.inl (hin.trans (List.prefix_append _ _).isInfix)
    · exact Or.inr hin

/-! ## Fields -/

/-- No field contains the symbol that separates the fields. -/
theorem not_mem_of_mem_splitOn {as field : List α} (h : field ∈ as.splitOn sep) : sep ∉ field := by
  induction as generalizing field with
  | nil =>
      rw [List.splitOn_nil, List.mem_singleton] at h
      subst h
      exact List.not_mem_nil
  | cons a as ih =>
      rw [List.splitOn_cons_eq_if_modifyHead] at h
      split at h
      · rcases List.mem_cons.1 h with rfl | h
        · exact List.not_mem_nil
        · exact ih h
      · next ha =>
          obtain ⟨first, rest, hfields⟩ := List.exists_cons_of_ne_nil (List.splitOn_ne_nil sep as)
          rw [hfields] at h ih
          rcases List.mem_cons.1 h with rfl | h
          -- the first field got the new symbol, which separates nothing
          · have hne : sep ≠ a := fun heq => ha (beq_iff_eq.2 heq.symm)
            exact List.not_mem_cons_of_ne_of_not_mem hne (ih List.mem_cons_self)
          · exact ih (List.mem_cons_of_mem first h)

/-- A text has two fields exactly when the symbol is in it once, between them. -/
theorem splitOn_eq_pair_iff {as left right : List α} :
    as.splitOn sep = [left, right] ↔ as = left ++ sep :: right ∧ sep ∉ left ∧ sep ∉ right := by
  constructor
  · intro h
    refine ⟨?_, ?_, ?_⟩
    · calc as = [sep].intercalate (as.splitOn sep) := (List.intercalate_splitOn sep).symm
        _ = [sep].intercalate [left, right] := by rw [h]
        _ = left ++ sep :: right := by simp
    · exact not_mem_of_mem_splitOn (h ▸ List.mem_cons_self)
    · exact not_mem_of_mem_splitOn (h ▸ List.mem_cons_of_mem _ List.mem_cons_self)
  · rintro ⟨rfl, hleft, hright⟩
    rw [List.splitOn_append_cons_self_of_not_mem hleft, List.splitOn_eq_singleton hright]

/-! ## Empty lines -/

omit [DecidableEq α] in
theorem mem_intersperse_of_mem {x l : List α} {ls : List (List α)} (h : l ∈ ls) :
    l ∈ ls.intersperse x := by
  induction ls with
  | nil => cases h
  | cons first ls ih =>
      cases ls with
      | nil => exact h
      | cons second ls =>
          rw [List.intersperse_cons_cons]
          rcases List.mem_cons.1 h with rfl | h
          · exact List.mem_cons_self
          · exact List.mem_cons_of_mem _ (List.mem_cons_of_mem _ (ih h))

omit [DecidableEq α] in
theorem mem_or_eq_of_mem_intersperse {x l : List α} {ls : List (List α)}
    (h : l ∈ ls.intersperse x) : l ∈ ls ∨ l = x := by
  induction ls with
  | nil => cases h
  | cons first ls ih =>
      cases ls with
      | nil => exact Or.inl h
      | cons second ls =>
          rw [List.intersperse_cons_cons] at h
          rcases List.mem_cons.1 h with rfl | h
          · exact Or.inl List.mem_cons_self
          rcases List.mem_cons.1 h with rfl | h
          · exact Or.inr rfl
          · exact (ih h).imp_left (List.mem_cons_of_mem first)

omit [DecidableEq α] in
/-- Two symbols between the lines are one on either side of a line without symbols. -/
theorem intercalate_blank (ls : List (List α)) :
    [sep, sep].intercalate ls = [sep].intercalate (ls.intersperse []) := by
  induction ls with
  | nil => rfl
  | cons first ls ih =>
      cases ls with
      | nil => rfl
      | cons second ls =>
          have hne : (second :: ls).intersperse [] ≠ [] :=
            List.ne_nil_of_mem (mem_intersperse_of_mem List.mem_cons_self)
          rw [List.intercalate_cons_cons, ih, List.intersperse_cons_cons,
            List.intercalate_cons_cons, List.intercalate_cons_of_ne_nil hne]
          simp

/-- **Lines with an empty one between two** are read as such exactly when none has the symbol. -/
theorem splitOn_blank_iff {ls : List (List α)} (hls : ls ≠ []) :
    ([sep, sep].intercalate ls).splitOn sep = ls.intersperse [] ↔ ∀ l ∈ ls, sep ∉ l := by
  constructor
  · intro h l hl
    exact not_mem_of_mem_splitOn (h ▸ mem_intersperse_of_mem hl)
  · intro h
    rw [intercalate_blank]
    apply List.splitOn_intercalate
    · intro l hl
      rcases mem_or_eq_of_mem_intersperse hl with hl | rfl
      · exact h l hl
      · exact List.not_mem_nil
    · obtain ⟨first, ls, rfl⟩ := List.exists_cons_of_ne_nil hls
      exact List.ne_nil_of_mem (mem_intersperse_of_mem List.mem_cons_self)
end Lib.Lines
