import Mathlib.Tactic.Common

/-!
# Code that can fail or panic

A call of fallible code ends in one of three ways: it returns a value, it returns an error that the
caller may handle, or it panics and unwinds the calling thread (`Outcome`). Two kinds of code are
built over it. A `Decoder` consumes a list of symbols from the front and keeps the unread rest. An
`Effect` acts on a world and records events. What an effect did to the world, and the events it
recorded, stay when it fails or panics: nothing is rolled back.
-/

set_option autoImplicit false

namespace Lib

universe u v w x

/-- How a call ends: with a value, with a returned error, or with a panic. -/
inductive Outcome (ε : Type u) (α : Type v) where
  | ok (a : α)
  | err (e : ε)
  | panic
  deriving DecidableEq

namespace Outcome

variable {ε : Type u} {α : Type v} {β : Type v}

/-- Go on with the value; an error or a panic ends the call. -/
def bind : Outcome ε α → (α → Outcome ε β) → Outcome ε β
  | .ok a, f => f a
  | .err e, _ => .err e
  | .panic, _ => .panic

instance : Monad (Outcome ε) where
  pure := .ok
  bind := Outcome.bind

@[simp] theorem pure_eq (a : α) : (pure a : Outcome ε α) = .ok a := rfl

@[simp] theorem ok_bind (a : α) (f : α → Outcome ε β) : (Outcome.ok a >>= f) = f a := rfl

@[simp] theorem err_bind (e : ε) (f : α → Outcome ε β) :
    ((Outcome.err e : Outcome ε α) >>= f) = .err e := rfl

@[simp] theorem panic_bind (f : α → Outcome ε β) :
    ((Outcome.panic : Outcome ε α) >>= f) = .panic := rfl

/-- A sequence returns exactly when both parts return. -/
theorem bind_eq_ok_iff {m : Outcome ε α} {f : α → Outcome ε β} {b : β} :
    (m >>= f) = .ok b ↔ ∃ a, m = .ok a ∧ f a = .ok b := by
  cases m with
  | ok a => simp
  | err e => simp
  | panic => simp

/-- A sequence panics exactly when its first part does, or its second part after the first
returned. -/
theorem bind_eq_panic_iff {m : Outcome ε α} {f : α → Outcome ε β} :
    (m >>= f) = .panic ↔ m = .panic ∨ ∃ a, m = .ok a ∧ f a = .panic := by
  cases m with
  | ok a => simp
  | err e => simp
  | panic => simp

/-- Change the error a call returns. -/
def mapErr (f : ε → ε) : Outcome ε α → Outcome ε α
  | .ok a => .ok a
  | .err e => .err (f e)
  | .panic => .panic

@[simp] theorem mapErr_eq_ok_iff {f : ε → ε} {m : Outcome ε α} {a : α} :
    m.mapErr f = .ok a ↔ m = .ok a := by
  cases m <;> simp [mapErr]

@[simp] theorem mapErr_eq_panic_iff {f : ε → ε} {m : Outcome ε α} :
    m.mapErr f = .panic ↔ m = .panic := by
  cases m <;> simp [mapErr]

/-- The value, if there is one. -/
def toOption : Outcome ε α → Option α
  | .ok a => some a
  | .err _ => none
  | .panic => none

/-- The value, or the error `e` where there is none. -/
def ofOption (e : ε) : Option α → Outcome ε α
  | some a => .ok a
  | none => .err e

@[simp] theorem ofOption_some (e : ε) (a : α) : ofOption e (some a) = .ok a := rfl

@[simp] theorem ofOption_none (e : ε) : (ofOption e none : Outcome ε α) = .err e := rfl

@[simp] theorem ofOption_eq_ok_iff {e : ε} {o : Option α} {a : α} :
    ofOption e o = .ok a ↔ o = some a := by
  cases o <;> simp

theorem ofOption_ne_panic (e : ε) (a : Option α) : ofOption e a ≠ .panic := by
  cases a <;> simp

@[simp] theorem mapErr_ok (f : ε → ε) (a : α) : (Outcome.ok a).mapErr f = .ok a := rfl

/-- `unwrap`: the value, and a panic where there is none. -/
def unwrap : Outcome ε α → Outcome ε α
  | .ok a => .ok a
  | .err _ => .panic
  | .panic => .panic

@[simp] theorem unwrap_eq_ok_iff {m : Outcome ε α} {a : α} : m.unwrap = .ok a ↔ m = .ok a := by
  cases m <;> simp [unwrap]

theorem unwrap_eq_panic_iff {m : Outcome ε α} : m.unwrap = .panic ↔ ∀ a, m ≠ .ok a := by
  cases m <;> simp [unwrap]

/-! ### Code that cannot fail but may panic -/

/-- The call returns a value where `p` holds, and panics where it does not. -/
def PanicsUnless (m : Outcome ε α) (p : Prop) : Prop := (p ∧ ∃ a, m = .ok a) ∨ (¬ p ∧ m = .panic)

namespace PanicsUnless

variable {m : Outcome ε α} {f : α → Outcome ε β} {p q : Prop}

theorem of_ok (a : α) : (Outcome.ok a : Outcome ε α).PanicsUnless True := Or.inl ⟨trivial, a, rfl⟩

theorem congr (h : m.PanicsUnless p) (hpq : p ↔ q) : m.PanicsUnless q := by
  rcases h with ⟨hp, hok⟩ | ⟨hp, hpanic⟩
  · exact Or.inl ⟨hpq.1 hp, hok⟩
  · exact Or.inr ⟨fun hq => hp (hpq.2 hq), hpanic⟩

/-- **Sequence rule.** A sequence needs what its parts need. -/
theorem bind (hm : m.PanicsUnless p) (hf : ∀ a, m = .ok a → (f a).PanicsUnless q) :
    (m >>= f).PanicsUnless (p ∧ q) := by
  rcases hm with ⟨hp, a, rfl⟩ | ⟨hp, rfl⟩
  · rw [ok_bind]
    exact (hf a rfl).congr (and_iff_right hp).symm
  · rw [panic_bind]
    exact Or.inr ⟨fun h => hp h.1, rfl⟩

theorem eq_panic_iff (h : m.PanicsUnless p) : m = .panic ↔ ¬ p := by
  rcases h with ⟨hp, a, rfl⟩ | ⟨hp, hpanic⟩
  · exact iff_of_false (by simp) (not_not_intro hp)
  · exact iff_of_true hpanic hp

end PanicsUnless

end Outcome

/-! ## Decoders -/

/-- Code that reads a value from the front of a list of symbols and leaves the unread rest. -/
def Decoder (σ : Type w) (ε : Type u) (α : Type v) := List σ → Outcome ε (α × List σ)

namespace Decoder

variable {σ : Type w} {ε : Type u} {α : Type v} {β : Type v}

/-- Read with `m`, then go on with its value on the rest. -/
def bind (m : Decoder σ ε α) (f : α → Decoder σ ε β) : Decoder σ ε β := fun s =>
  match m s with
  | .ok (a, rest) => f a rest
  | .err e => .err e
  | .panic => .panic

instance : Monad (Decoder σ ε) where
  pure a := fun s => .ok (a, s)
  bind := Decoder.bind

/-- Code that reads nothing. -/
def lift (m : Outcome ε α) : Decoder σ ε α := fun s =>
  match m with
  | .ok a => .ok (a, s)
  | .err e => .err e
  | .panic => .panic

/-- Return an error. -/
def fail (e : ε) : Decoder σ ε α := fun _ => .err e

/-- Change the error a decoder returns. -/
def mapErr (f : ε → ε) (m : Decoder σ ε α) : Decoder σ ε α := fun s => (m s).mapErr f

/-- The value read from the front of `s`; the rest is dropped. -/
def eval (m : Decoder σ ε α) (s : List σ) : Outcome ε α :=
  match m s with
  | .ok (a, _) => .ok a
  | .err e => .err e
  | .panic => .panic

@[simp] theorem pure_apply (a : α) (s : List σ) : (pure a : Decoder σ ε α) s = .ok (a, s) := rfl

@[simp] theorem fail_apply (e : ε) (s : List σ) : (fail e : Decoder σ ε α) s = .err e := rfl

@[simp] theorem mapErr_apply (f : ε → ε) (m : Decoder σ ε α) (s : List σ) :
    m.mapErr f s = (m s).mapErr f := rfl

/-- A sequence of decoders reads a value exactly when both parts do, one after the other. -/
theorem bind_eq_ok_iff {m : Decoder σ ε α} {f : α → Decoder σ ε β} {s rest : List σ} {b : β} :
    (m >>= f) s = .ok (b, rest) ↔ ∃ a mid, m s = .ok (a, mid) ∧ f a mid = .ok (b, rest) := by
  show Decoder.bind m f s = .ok (b, rest) ↔ _
  rw [Decoder.bind]
  cases m s with
  | ok p =>
      rcases p with ⟨a, mid⟩
      simp
  | err e => simp
  | panic => simp

/-- A sequence of decoders panics exactly when its first part does, or its second part on what the
first left. -/
theorem bind_eq_panic_iff {m : Decoder σ ε α} {f : α → Decoder σ ε β} {s : List σ} :
    (m >>= f) s = .panic ↔ m s = .panic ∨ ∃ a mid, m s = .ok (a, mid) ∧ f a mid = .panic := by
  show Decoder.bind m f s = .panic ↔ _
  rw [Decoder.bind]
  cases m s with
  | ok p =>
      rcases p with ⟨a, mid⟩
      simp
  | err e => simp
  | panic => simp

/-- A sequence of decoders may be grouped either way. -/
theorem bind_assoc {γ : Type v} (m : Decoder σ ε α) (f : α → Decoder σ ε β)
    (g : β → Decoder σ ε γ) : (m >>= f >>= g) = m >>= fun a => f a >>= g := by
  funext s
  show Decoder.bind (Decoder.bind m f) g s = Decoder.bind m (fun a => Decoder.bind (f a) g) s
  simp only [Decoder.bind]
  cases m s with
  | ok p => rfl
  | err e => rfl
  | panic => rfl

theorem pure_bind (a : α) (f : α → Decoder σ ε β) : (pure a >>= f) = f a := rfl

theorem fail_bind (e : ε) (f : α → Decoder σ ε β) : ((fail e : Decoder σ ε α) >>= f) = fail e := rfl

theorem lift_bind {γ : Type v} (m : Outcome ε α) (f : α → Outcome ε γ) :
    (lift (m >>= f) : Decoder σ ε γ) = lift m >>= fun a => lift (f a) := by
  cases m <;> rfl

theorem lift_ok (a : α) : (lift (.ok a) : Decoder σ ε α) = pure a := rfl

theorem eval_eq_ok_iff {m : Decoder σ ε α} {s : List σ} {a : α} :
    m.eval s = .ok a ↔ ∃ rest, m s = .ok (a, rest) := by
  rw [eval]
  cases m s with
  | ok p =>
      rcases p with ⟨b, rest⟩
      simp
  | err e => simp
  | panic => simp

theorem eval_eq_panic_iff {m : Decoder σ ε α} {s : List σ} :
    m.eval s = .panic ↔ m s = .panic := by
  rw [eval]
  cases m s with
  | ok p =>
      rcases p with ⟨b, rest⟩
      simp
  | err e => simp
  | panic => simp

@[simp] theorem lift_eq_ok_iff {m : Outcome ε α} {s rest : List σ} {a : α} :
    (lift m : Decoder σ ε α) s = .ok (a, rest) ↔ m = .ok a ∧ s = rest := by
  cases m <;> simp [lift]

@[simp] theorem lift_eq_panic_iff {m : Outcome ε α} {s : List σ} :
    (lift m : Decoder σ ε α) s = .panic ↔ m = .panic := by
  cases m <;> simp [lift]

/-! ### Whole inputs and repeated reading -/

/-- The value read from all of `s`; symbols left over are the error `e`. -/
def whole (e : ε) (m : Decoder σ ε α) (s : List σ) : Outcome ε α :=
  match m s with
  | .ok (a, []) => .ok a
  | .ok (_, _ :: _) => .err e
  | .err e' => .err e'
  | .panic => .panic

/-- `n` values, one after the other. -/
def many (m : Decoder σ ε α) : Nat → Decoder σ ε (List α)
  | 0 => pure []
  | n + 1 => do
      let a ← m
      let as ← many m n
      pure (a :: as)

theorem whole_eq_ok_iff {e : ε} {m : Decoder σ ε α} {s : List σ} {a : α} :
    m.whole e s = .ok a ↔ m s = .ok (a, []) := by
  rw [whole]
  cases m s with
  | ok p =>
      rcases p with ⟨b, _ | ⟨x, rest⟩⟩
      · simp
      · simp
  | err e' => simp
  | panic => simp

/-- **Repetition rule.** When one value is accepted exactly as it is written, `n` values are
accepted exactly as `n` writings next to each other. -/
theorem many_eq_ok_iff {m : Decoder σ ε α} {write : α → List σ} {Good : α → Prop}
    (hm : ∀ s a rest, m s = .ok (a, rest) ↔ Good a ∧ s = write a ++ rest) {n : Nat}
    {s rest : List σ} {as : List α} :
    many m n s = .ok (as, rest) ↔
      as.length = n ∧ (∀ a ∈ as, Good a) ∧ s = as.flatMap write ++ rest := by
  induction n generalizing s as with
  | zero =>
      rw [many, pure_apply, Outcome.ok.injEq, Prod.mk.injEq]
      constructor
      · rintro ⟨rfl, rfl⟩
        exact ⟨rfl, by simp, rfl⟩
      · rintro ⟨hlen, -, rfl⟩
        rw [List.length_eq_zero_iff.1 hlen]
        exact ⟨rfl, rfl⟩
  | succ n ih =>
      rw [many, bind_eq_ok_iff]
      constructor
      · rintro ⟨a, mid, ha, h⟩
        obtain ⟨as', mid', has, h⟩ := bind_eq_ok_iff.1 h
        rw [pure_apply, Outcome.ok.injEq, Prod.mk.injEq] at h
        obtain ⟨rfl, rfl⟩ := h
        obtain ⟨hgood, rfl⟩ := (hm _ _ _).1 ha
        obtain ⟨rfl, hgoods, rfl⟩ := ih.1 has
        refine ⟨rfl, ?_, ?_⟩
        · intro b hb
          rcases List.mem_cons.1 hb with rfl | hb
          · exact hgood
          · exact hgoods b hb
        · rw [List.flatMap_cons, List.append_assoc]
      · rintro ⟨hlen, hgood, rfl⟩
        cases as with
        | nil => simp at hlen
        | cons a as =>
            have hlen' : as.length = n := by simpa using hlen
            refine ⟨a, as.flatMap write ++ rest, ?_, ?_⟩
            · refine (hm _ _ _).2 ⟨hgood a List.mem_cons_self, ?_⟩
              rw [List.flatMap_cons, List.append_assoc]
            · have hrest : many m n (as.flatMap write ++ rest) = .ok (as, rest) :=
                ih.2 ⟨hlen', fun b hb => hgood b (List.mem_cons_of_mem a hb), rfl⟩
              exact bind_eq_ok_iff.2 ⟨as, rest, hrest, rfl⟩

end Decoder

/-! ## Effects -/

/-- What a run of an effect leaves: how it ended, the world, and the events in their order. -/
structure Ran (ω : Type u) (η : Type v) (ε : Type w) (α : Type x) where
  outcome : Outcome ε α
  world : ω
  events : List η

/-- Code that acts on a world and records events. -/
def Effect (ω : Type u) (η : Type v) (ε : Type w) (α : Type x) := ω → Ran ω η ε α

namespace Effect

variable {ω : Type u} {η : Type v} {ε : Type w} {α β : Type x}

/-- Go on with the value in the world the first part left, after its events. -/
def bind (m : Effect ω η ε α) (f : α → Effect ω η ε β) : Effect ω η ε β := fun s =>
  match m s with
  | ⟨.ok a, s', es⟩ => { f a s' with events := es ++ (f a s').events }
  | ⟨.err e, s', es⟩ => ⟨.err e, s', es⟩
  | ⟨.panic, s', es⟩ => ⟨.panic, s', es⟩

instance : Monad (Effect ω η ε) where
  pure a := fun s => ⟨.ok a, s, []⟩
  bind := Effect.bind

/-- Code that touches neither the world nor the record. -/
def lift (m : Outcome ε α) : Effect ω η ε α := fun s => ⟨m, s, []⟩

/-- Change the error an effect returns. -/
def mapErr (f : ε → ε) (m : Effect ω η ε α) : Effect ω η ε α := fun s =>
  ⟨(m s).outcome.mapErr f, (m s).world, (m s).events⟩

@[simp] theorem pure_apply (a : α) (s : ω) : (pure a : Effect ω η ε α) s = ⟨.ok a, s, []⟩ := rfl

@[simp] theorem lift_apply (m : Outcome ε α) (s : ω) :
    (lift m : Effect ω η ε α) s = ⟨m, s, []⟩ := rfl

@[simp] theorem mapErr_apply (f : ε → ε) (m : Effect ω η ε α) (s : ω) :
    m.mapErr f s = ⟨(m s).outcome.mapErr f, (m s).world, (m s).events⟩ := rfl

/-- The run, recorded after the events `es`. -/
def after (es : List η) (r : Ran ω η ε α) : Ran ω η ε α := { r with events := es ++ r.events }

theorem lift_bind_apply (m : Outcome ε α) (f : α → Effect ω η ε β) (s : ω) :
    (lift m >>= f) s =
      match m with
      | .ok a => f a s
      | .err e => ⟨.err e, s, []⟩
      | .panic => ⟨.panic, s, []⟩ := by
  cases m <;> rfl

theorem bind_of_ok {m : Effect ω η ε α} {f : α → Effect ω η ε β} {s s' : ω} {a : α}
    {es : List η} (h : m s = ⟨.ok a, s', es⟩) : (m >>= f) s = after es (f a s') := by
  show Effect.bind m f s = _
  rw [Effect.bind, h]
  rfl

theorem bind_of_err {m : Effect ω η ε α} {f : α → Effect ω η ε β} {s s' : ω} {e : ε}
    {es : List η} (h : m s = ⟨.err e, s', es⟩) : (m >>= f) s = ⟨.err e, s', es⟩ := by
  show Effect.bind m f s = _
  rw [Effect.bind, h]

end Effect

end Lib
