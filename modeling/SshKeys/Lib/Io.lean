import Mathlib.Tactic.Common

/-!
# Reading and writing a part at a time

A call of `read` gives some of the elements that were asked for, and a call of `write` takes some of
those it is given. `readExact` and `writeAll` call them until everything has moved or nothing moves
any more.

`Reads` says that the calls of `read` give the elements of a list in order, whatever the parts they
come in, and `Writes` that the calls of `write` put them at the end of a list, until the room for
them is used up. Then `readExact` and `writeAll` are one operation on the list
(`readExact_of_le`, `readExact_of_lt`, `writeAll_of_le`, `writeAll_of_lt`).
-/

set_option autoImplicit false

namespace Lib.Io

universe u v w x

variable {τ : Type u} {β : Type v} {κ : Type w} {γ : Type x}

/-! ## Reading -/

section Reading

variable (read : Nat → τ → Except κ (List β) × τ) (eof : κ)

/-- At most `fuel` calls of `read` for `n` elements. A call that gives none is the end of input. -/
def readExactFor : Nat → Nat → τ → Except κ (List β) × τ
  | _, 0, t => (.ok [], t)
  | 0, _ + 1, t => (.error eof, t)
  | fuel + 1, n + 1, t =>
      match read (n + 1) t with
      | (.ok [], t') => (.error eof, t')
      | (.ok (b :: data), t') =>
          match readExactFor fuel (n - data.length) t' with
          | (.ok rest, t'') => (.ok (b :: data ++ rest), t'')
          | (.error e, t'') => (.error e, t'')
      | (.error e, t') => (.error e, t')

/-- Every call but the last gives an element at least, so `n` calls are enough. -/
def readExact (n : Nat) (t : τ) : Except κ (List β) × τ := readExactFor read eof n n t

/-- The calls of `read` give what is in `input`, and after it the error `atEnd`. They have no effect
on `frame`. -/
structure Reads (input : τ → List β) (atEnd : τ → κ) (frame : τ → γ) : Prop where
  some : ∀ {n : Nat} {t t' : τ} {b : β} {data : List β}, 0 < n →
    read n t = (.ok (b :: data), t') →
    data.length < n ∧ input t = b :: data ++ input t' ∧ atEnd t' = atEnd t
  none : ∀ {n : Nat} {t t' : τ}, 0 < n → read n t = (.ok [], t') → input t = [] ∧ atEnd t = eof
  error : ∀ {n : Nat} {t t' : τ} {e : κ}, 0 < n → read n t = (.error e, t') →
    input t = [] ∧ atEnd t = e
  frame : ∀ (n : Nat) (t : τ), frame (read n t).2 = frame t

variable {read eof} {input : τ → List β} {atEnd : τ → κ} {frame : τ → γ}

theorem readExactFor_of_le (h : Reads read eof input atEnd frame) {fuel n : Nat} {t : τ}
    (hfuel : n ≤ fuel) (hle : n ≤ (input t).length) :
    ∃ t', readExactFor read eof fuel n t = (.ok ((input t).take n), t') ∧
      input t' = (input t).drop n ∧ atEnd t' = atEnd t ∧ frame t' = frame t := by
  induction fuel generalizing n t with
  | zero =>
      rw [Nat.le_zero.1 hfuel]
      exact ⟨t, rfl, rfl, rfl, rfl⟩
  | succ fuel ih =>
      cases n with
      | zero => exact ⟨t, rfl, rfl, rfl, rfl⟩
      | succ n =>
          have hframe := h.frame (n + 1) t
          rcases hread : read (n + 1) t with ⟨outcome, t'⟩
          rw [hread] at hframe
          cases outcome with
          | error e =>
              obtain ⟨hempty, -⟩ := h.error (Nat.succ_pos n) hread
              rw [hempty] at hle
              exact absurd hle (by simp)
          | ok data =>
          cases data with
          | nil =>
              obtain ⟨hempty, -⟩ := h.none (Nat.succ_pos n) hread
              rw [hempty] at hle
              exact absurd hle (by simp)
          | cons b data =>
              obtain ⟨hlt, hinput, hend⟩ := h.some (Nat.succ_pos n) hread
              have hlen : (input t).length = data.length + 1 + (input t').length := by
                rw [hinput]
                simp only [List.length_append, List.length_cons]
              obtain ⟨t'', hrest, hinput', hend', hframe'⟩ :=
                ih (n := n - data.length) (t := t') (by omega) (by omega)
              have hsplit : n + 1 = (b :: data).length + (n - data.length) := by
                rw [List.length_cons]
                omega
              refine ⟨t'', ?_, ?_, hend'.trans hend, hframe'.trans hframe⟩
              · rw [readExactFor, hread]
                simp only [hrest]
                rw [hinput, hsplit, List.take_length_add_append]
              · rw [hinput', hinput, hsplit, List.drop_length_add_append]

/-- **Enough input** is read, as much as is asked for. -/
theorem readExact_of_le (h : Reads read eof input atEnd frame) {n : Nat} {t : τ}
    (hle : n ≤ (input t).length) :
    ∃ t', readExact read eof n t = (.ok ((input t).take n), t') ∧
      input t' = (input t).drop n ∧ atEnd t' = atEnd t ∧ frame t' = frame t :=
  readExactFor_of_le h (Nat.le_refl n) hle

theorem readExactFor_of_lt (h : Reads read eof input atEnd frame) {fuel n : Nat} {t : τ}
    (hfuel : n ≤ fuel) (hlt : (input t).length < n) :
    ∃ t', readExactFor read eof fuel n t = (.error (atEnd t), t') ∧ frame t' = frame t := by
  induction fuel generalizing n t with
  | zero => omega
  | succ fuel ih =>
      cases n with
      | zero => omega
      | succ n =>
          have hframe := h.frame (n + 1) t
          rcases hread : read (n + 1) t with ⟨outcome, t'⟩
          rw [hread] at hframe
          cases outcome with
          | error e =>
              obtain ⟨-, hend⟩ := h.error (Nat.succ_pos n) hread
              exact ⟨t', by rw [readExactFor, hread, hend], hframe⟩
          | ok data =>
          cases data with
          | nil =>
              obtain ⟨-, hend⟩ := h.none (Nat.succ_pos n) hread
              exact ⟨t', by rw [readExactFor, hread, hend], hframe⟩
          | cons b data =>
              obtain ⟨hdata, hinput, hend⟩ := h.some (Nat.succ_pos n) hread
              have hlen : (input t).length = data.length + 1 + (input t').length := by
                rw [hinput]
                simp only [List.length_append, List.length_cons]
              obtain ⟨t'', hrest, hframe'⟩ :=
                ih (n := n - data.length) (t := t') (by omega) (by omega)
              refine ⟨t'', ?_, hframe'.trans hframe⟩
              rw [readExactFor, hread]
              simp only [hrest, hend]

/-- **Too little input** ends in the error at its end. -/
theorem readExact_of_lt (h : Reads read eof input atEnd frame) {n : Nat} {t : τ}
    (hlt : (input t).length < n) :
    ∃ t', readExact read eof n t = (.error (atEnd t), t') ∧ frame t' = frame t :=
  readExactFor_of_lt h (Nat.le_refl n) hlt

end Reading

/-! ## Writing -/

section Writing

variable (write : List β → τ → Except κ Nat × τ) (writeZero : κ)

/-- At most `fuel` calls of `write`. A call that takes nothing is an error. -/
def writeAllFor : Nat → List β → τ → Except κ Unit × τ
  | _, [], t => (.ok (), t)
  | 0, _ :: _, t => (.error writeZero, t)
  | fuel + 1, b :: data, t =>
      match write (b :: data) t with
      | (.ok 0, t') => (.error writeZero, t')
      | (.ok (k + 1), t') => writeAllFor fuel (data.drop k) t'
      | (.error e, t') => (.error e, t')

/-- `write_all`. A call that succeeds takes one element at least, so the length is enough fuel. -/
def writeAll (data : List β) (t : τ) : Except κ Unit × τ :=
  writeAllFor write writeZero data.length data t

/-- The calls of `write` with fewer than `limit` elements add to `output` as long as there is
`room`, which is unbounded if it is `none`. No call has an effect on `frame`. -/
structure Writes (limit : Nat) (output : τ → List β) (room : τ → Option Nat) (frame : τ → γ) :
    Prop where
  some : ∀ {k : Nat} {data : List β} {t t' : τ}, data.length < limit →
    write data t = (.ok (k + 1), t') →
    k + 1 ≤ data.length ∧ (∀ r ∈ room t, k + 1 ≤ r) ∧ output t' = output t ++ data.take (k + 1) ∧
      room t' = (room t).map fun r => r - (k + 1)
  none : ∀ {data : List β} {t t' : τ}, data ≠ [] → data.length < limit →
    write data t = (.ok 0, t') → room t = Option.some 0 ∧ output t' = output t
  error : ∀ {data : List β} {t t' : τ} {e : κ}, data ≠ [] → data.length < limit →
    write data t = (.error e, t') → room t = Option.some 0 ∧ output t' = output t
  frame : ∀ (data : List β) (t : τ), frame (write data t).2 = frame t

variable {write} {limit : Nat} {output : τ → List β} {room : τ → Option Nat}
  {frame : τ → γ}

theorem writeAllFor_frame (h : Writes write limit output room frame) (fuel : Nat) (data : List β)
    (t : τ) : frame (writeAllFor write writeZero fuel data t).2 = frame t := by
  induction fuel generalizing data t with
  | zero => cases data <;> rfl
  | succ fuel ih =>
      cases data with
      | nil => rfl
      | cons b data =>
          have hframe := h.frame (b :: data) t
          rw [writeAllFor]
          rcases hwrite : write (b :: data) t with ⟨outcome, t'⟩
          rw [hwrite] at hframe
          cases outcome with
          | error e => exact hframe
          | ok k =>
          cases k with
          | zero => exact hframe
          | succ k => exact (ih (data.drop k) t').trans hframe

/-- Writing has no effect on what is not written. -/
theorem writeAll_frame (h : Writes write limit output room frame) (data : List β) (t : τ) :
    frame (writeAll write writeZero data t).2 = frame t :=
  writeAllFor_frame writeZero h data.length data t

theorem writeAllFor_of_le (h : Writes write limit output room frame) {fuel : Nat} {data : List β}
    {t : τ} (hfuel : data.length ≤ fuel) (hlimit : data.length < limit)
    (hle : ∀ r ∈ room t, data.length ≤ r) :
    ∃ t', writeAllFor write writeZero fuel data t = (.ok (), t') ∧
      output t' = output t ++ data ∧ room t' = (room t).map fun r => r - data.length := by
  induction fuel generalizing data t with
  | zero =>
      rw [List.eq_nil_of_length_eq_zero (Nat.le_zero.1 hfuel)]
      exact ⟨t, rfl, (List.append_nil _).symm, by cases room t <;> rfl⟩
  | succ fuel ih =>
      cases data with
      | nil => exact ⟨t, rfl, (List.append_nil _).symm, by cases room t <;> rfl⟩
      | cons b data =>
          -- a call that takes nothing has no room left
          have hroom (hzero : room t = Option.some 0) : False := by
            have hpos := hle 0 hzero
            simp at hpos
          rcases hwrite : write (b :: data) t with ⟨outcome, t'⟩
          cases outcome with
          | error e => exact (hroom (h.error (List.cons_ne_nil b data) hlimit hwrite).1).elim
          | ok k =>
          cases k with
          | zero => exact (hroom (h.none (List.cons_ne_nil b data) hlimit hwrite).1).elim
          | succ k =>
              obtain ⟨hk, -, houtput, hroom'⟩ := h.some hlimit hwrite
              rw [List.length_cons] at hk hfuel hlimit
              have hlen : (data.drop k).length = data.length - k := List.length_drop
              have hle' : ∀ r ∈ room t', (data.drop k).length ≤ r := by
                intro r hr
                rw [hroom'] at hr
                obtain ⟨r₀, hr₀, rfl⟩ := Option.map_eq_some_iff.1 hr
                have hfits := hle r₀ hr₀
                rw [List.length_cons] at hfits
                omega
              obtain ⟨t'', hrest, houtput', hroom''⟩ := ih (by omega) (by omega) hle'
              refine ⟨t'', ?_, ?_, ?_⟩
              · rw [writeAllFor, hwrite]
                exact hrest
              · rw [houtput', houtput, List.append_assoc, List.take_succ_cons, List.cons_append,
                  List.take_append_drop]
              · rw [hroom'', hroom', Option.map_map, hlen, List.length_cons]
                congr 1
                funext r
                show r - (k + 1) - (data.length - k) = r - (data.length + 1)
                omega

/-- **Enough room** takes everything. -/
theorem writeAll_of_le (h : Writes write limit output room frame) {data : List β} {t : τ}
    (hlimit : data.length < limit) (hle : ∀ r ∈ room t, data.length ≤ r) :
    ∃ t', writeAll write writeZero data t = (.ok (), t') ∧
      output t' = output t ++ data ∧ room t' = (room t).map fun r => r - data.length :=
  writeAllFor_of_le writeZero h (Nat.le_refl _) hlimit hle

theorem writeAllFor_of_lt (h : Writes write limit output room frame) {fuel r : Nat}
    {data : List β} {t : τ} (hfuel : data.length ≤ fuel) (hlimit : data.length < limit)
    (hroom : room t = Option.some r) (hlt : r < data.length) :
    ∃ t' e, writeAllFor write writeZero fuel data t = (.error e, t') ∧
      output t' = output t ++ data.take r := by
  induction fuel generalizing r data t with
  | zero => omega
  | succ fuel ih =>
      cases data with
      | nil => simp at hlt
      | cons b data =>
          have hstop {t' : τ} (hzero : room t = Option.some 0) (houtput : output t' = output t) :
              output t' = output t ++ (b :: data).take r := by
            rw [hroom, Option.some.injEq] at hzero
            rw [hzero, houtput]
            exact (List.append_nil _).symm
          rcases hwrite : write (b :: data) t with ⟨outcome, t'⟩
          cases outcome with
          | error e =>
              obtain ⟨hzero, houtput⟩ := h.error (List.cons_ne_nil b data) hlimit hwrite
              exact ⟨t', e, by rw [writeAllFor, hwrite], hstop hzero houtput⟩
          | ok k =>
          cases k with
          | zero =>
              obtain ⟨hzero, houtput⟩ := h.none (List.cons_ne_nil b data) hlimit hwrite
              exact ⟨t', writeZero, by rw [writeAllFor, hwrite], hstop hzero houtput⟩
          | succ k =>
              obtain ⟨hk, hfits, houtput, hroom'⟩ := h.some hlimit hwrite
              have hkr : k + 1 ≤ r := hfits r hroom
              rw [List.length_cons] at hk hfuel hlimit hlt
              have hlen : (data.drop k).length = data.length - k := List.length_drop
              rw [hroom, Option.map_some] at hroom'
              have hfuel' : (data.drop k).length ≤ fuel := by omega
              have hlimit' : (data.drop k).length < limit := by omega
              have hlt' : r - (k + 1) < (data.drop k).length := by omega
              obtain ⟨t'', e, hrest, houtput'⟩ := ih hfuel' hlimit' hroom' hlt'
              have hsplit : r = k + 1 + (r - (k + 1)) := by omega
              refine ⟨t'', e, ?_, ?_⟩
              · rw [writeAllFor, hwrite]
                exact hrest
              · rw [houtput', houtput, List.append_assoc]
                congr 1
                conv_rhs => rw [hsplit, List.take_add]
                rfl

/-- **Too little room** takes what fits, and then there is an error. -/
theorem writeAll_of_lt (h : Writes write limit output room frame) {r : Nat} {data : List β} {t : τ}
    (hlimit : data.length < limit) (hroom : room t = Option.some r) (hlt : r < data.length) :
    ∃ t' e, writeAll write writeZero data t = (.error e, t') ∧
      output t' = output t ++ data.take r :=
  writeAllFor_of_lt writeZero h (Nat.le_refl _) hlimit hroom hlt

end Writing

end Lib.Io
