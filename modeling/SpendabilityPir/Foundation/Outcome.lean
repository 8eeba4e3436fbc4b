/-!
# Results of fallible code

A call returns a value, returns an error, or panics.
-/

namespace SpendabilityPir
namespace Foundation

theorem ok_bind {ε α β : Type _} (a : α) (f : α -> Except ε β) :
    (.ok a : Except ε α) >>= f = f a := rfl

/-- A sequence returns a value when both parts do. -/
theorem bind_eq_ok {ε α β : Type _} {x : Except ε α} {f : α -> Except ε β} {b : β} :
    x >>= f = .ok b ↔ exists a, x = .ok a ∧ f a = .ok b := by
  cases x with
  | ok a =>
      constructor
      · intro h
        exact ⟨a, rfl, h⟩
      · rintro ⟨_, ha, h⟩
        cases ha
        exact h
  | error e =>
      constructor
      · intro h
        cases h
      · rintro ⟨_, ha, _⟩
        cases ha

/-- Why a call did not return a value. -/
inductive Failure (ε : Type _) where
  | error (e : ε)
  | panic
deriving DecidableEq, Repr

/-- The outcome of code that returns a `Result` and may panic. -/
abbrev Outcome (ε α : Type _) := Except (Failure ε) α

namespace Outcome

/-- Code that can only panic, run where errors are possible too. -/
def ofPanics {ε α : Type _} : Option α -> Outcome ε α
  | some a => .ok a
  | none => .error .panic

@[simp] theorem ofPanics_some {ε α : Type _} (a : α) :
    (ofPanics (some a) : Outcome ε α) = .ok a := rfl

@[simp] theorem ofPanics_none {ε α : Type _} :
    (ofPanics none : Outcome ε α) = .error .panic := rfl

theorem ofPanics_eq_ok {ε α : Type _} {x : Option α} {a : α} :
    (ofPanics x : Outcome ε α) = .ok a ↔ x = some a := by
  cases x <;> simp

/-- Wrap the error of a call. -/
def mapErr {ε ε' α : Type _} (wrap : ε -> ε') : Outcome ε α -> Outcome ε' α
  | .ok a => .ok a
  | .error (.error e) => .error (.error (wrap e))
  | .error .panic => .error .panic

theorem mapErr_eq_ok {ε ε' α : Type _} {wrap : ε -> ε'} {x : Outcome ε α} {a : α} :
    mapErr wrap x = .ok a ↔ x = .ok a := by
  cases x with
  | ok b => simp [mapErr]
  | error failure => cases failure <;> simp [mapErr]

/-- A call that returns, with a value or with an error. -/
def NoPanic {ε α : Type _} (x : Outcome ε α) : Prop := x ≠ .error .panic

theorem noPanic_ok {ε α : Type _} (a : α) : NoPanic (.ok a : Outcome ε α) := by
  intro h
  cases h

theorem noPanic_error {ε α : Type _} (e : ε) :
    NoPanic (.error (.error e) : Outcome ε α) := by
  intro h
  cases h

theorem noPanic_bind {ε α β : Type _} {x : Outcome ε α} {f : α -> Outcome ε β} :
    NoPanic (x >>= f) ↔ NoPanic x ∧ forall a, x = .ok a -> NoPanic (f a) := by
  cases x with
  | ok a =>
      constructor
      · intro h
        refine ⟨noPanic_ok a, ?_⟩
        intro b hb
        cases hb
        exact h
      · intro h
        exact h.right a rfl
  | error failure =>
      constructor
      · intro h
        refine ⟨?_, fun b hb => nomatch hb⟩
        intro hpanic
        cases hpanic
        exact h rfl
      · intro h hpanic
        cases hpanic
        exact h.left rfl

theorem noPanic_ofPanics_bind {ε α β : Type _} {x : Option α} {f : α -> Outcome ε β} :
    NoPanic (ofPanics x >>= f) ↔ exists a, x = some a ∧ NoPanic (f a) := by
  cases x with
  | none =>
      constructor
      · intro h
        exact absurd rfl h
      · rintro ⟨_, hnone, _⟩
        cases hnone
  | some a =>
      constructor
      · intro h
        exact ⟨a, rfl, h⟩
      · rintro ⟨_, ha, h⟩
        cases ha
        exact h

/-- A call does what another does, unless the other panics. -/
def Follows {ε α : Type _} (x y : Outcome ε α) : Prop := NoPanic y -> x = y

theorem Follows.refl {ε α : Type _} (x : Outcome ε α) : Follows x x := fun _ => rfl

theorem Follows.bind {ε α β : Type _} {x y : Outcome ε α} {f g : α -> Outcome ε β}
    (hfirst : Follows x y) (hrest : forall a, Follows (f a) (g a)) :
    Follows (x >>= f) (y >>= g) := by
  intro h
  rcases noPanic_bind.mp h with ⟨hy, hg⟩
  rw [hfirst hy]
  cases y with
  | ok a => exact hrest a (hg a rfl)
  | error failure => rfl

/-- A read that succeeds with a value when its input is present and otherwise fails with
an error. -/
structure ReadsTo {ε α : Type _} (x : Outcome ε α) (present : Prop) (a : α) : Prop where
  ok : present -> x = .ok a
  missing : ¬ present -> exists e, x = .error (.error e)

theorem ReadsTo.noPanic_bind_iff {ε α β : Type _} {x : Outcome ε α} {present : Prop}
    {a : α} (h : ReadsTo x present a) {f : α -> Outcome ε β} :
    NoPanic (x >>= f) ↔ (present -> NoPanic (f a)) := by
  by_cases hpresent : present
  · rw [h.ok hpresent]
    exact ⟨fun hf _ => hf, fun hf => hf hpresent⟩
  · rcases h.missing hpresent with ⟨e, he⟩
    rw [he]
    exact ⟨fun _ hp => absurd hp hpresent, fun _ => noPanic_error e⟩

theorem ReadsTo.bind {ε α β : Type _} {x : Outcome ε α} {present later : Prop} {a : α}
    {f : α -> Outcome ε β} {b : β} (h : ReadsTo x present a)
    (hf : ReadsTo (f a) later b) (hlater : later -> present) :
    ReadsTo (x >>= f) later b := by
  constructor
  · intro hpresent
    rw [h.ok (hlater hpresent)]
    exact hf.ok hpresent
  · intro hmissing
    by_cases hpresent : present
    · rw [h.ok hpresent]
      exact hf.missing hmissing
    · rcases h.missing hpresent with ⟨e, he⟩
      rw [he]
      exact ⟨e, rfl⟩

theorem ReadsTo.bind_ok {ε α β : Type _} {x : Outcome ε α} {present : Prop} {a : α}
    {f : α -> Outcome ε β} {b : β} (h : ReadsTo x present a) (hf : f a = .ok b) :
    ReadsTo (x >>= f) present b := by
  constructor
  · intro hpresent
    rw [h.ok hpresent]
    exact hf
  · intro hmissing
    rcases h.missing hmissing with ⟨e, he⟩
    rw [he]
    exact ⟨e, rfl⟩

/-- A call ends with a value or an error of a kind, and does not panic. -/
def EndsIn {ε α : Type _} (x : Outcome ε α) (value : α -> Prop) (failure : ε -> Prop) : Prop :=
  (exists a, x = .ok a ∧ value a) ∨ exists e, x = .error (.error e) ∧ failure e

theorem EndsIn.bind {ε α β : Type _} {x : Outcome ε α} {f : α -> Outcome ε β}
    {value : α -> Prop} {result : β -> Prop} {failure : ε -> Prop}
    (h : EndsIn x value failure) (hf : forall a, value a -> EndsIn (f a) result failure) :
    EndsIn (x >>= f) result failure := by
  rcases h with ⟨a, ha, hvalue⟩ | ⟨e, he, hfailure⟩
  · rw [ha]
    exact hf a hvalue
  · rw [he]
    exact Or.inr ⟨e, rfl, hfailure⟩

theorem EndsIn.imp {ε α : Type _} {x : Outcome ε α} {value value' : α -> Prop}
    {failure : ε -> Prop} (h : EndsIn x value failure)
    (himp : forall a, x = .ok a -> value a -> value' a) : EndsIn x value' failure := by
  rcases h with ⟨a, ha, hvalue⟩ | herror
  · exact Or.inl ⟨a, ha, himp a ha hvalue⟩
  · exact Or.inr herror

end Outcome

end Foundation
end SpendabilityPir
