import Mathlib.Algebra.Group.Nat.Defs
import SpendabilityPir.Foundation.Outcome

/-!
# Machine integers

Counters are natural numbers.  Where a result depends on the width of a machine
integer, an operation says what happens past it: a checked build panics, a wrapping
build reduces modulo the width.
-/

namespace SpendabilityPir
namespace Foundation

/-- How a build treats integer overflow. -/
inductive Arithmetic where
  | checked
  | wrapping
deriving DecidableEq

def asU32 (n : Nat) : Nat := n % 2 ^ 32

theorem asU32_of_lt {n : Nat} (h : n < 2 ^ 32) : asU32 n = n :=
  Nat.mod_eq_of_lt h

/-- Subtraction of 32-bit numbers in a wrapping build. -/
def wrappingSubU32 (a b : Nat) : Nat := (a + 2 ^ 32 - b) % 2 ^ 32

theorem wrappingSubU32_of_le {a b : Nat} (hle : b ≤ a) (ha : a < 2 ^ 32) :
    wrappingSubU32 a b = a - b := by
  have hsum : a + 2 ^ 32 - b = (a - b) + 2 ^ 32 := by lia
  rw [wrappingSubU32, hsum, Nat.add_mod_right]
  exact Nat.mod_eq_of_lt (by lia)

namespace Arithmetic

def fit {ε : Type _} (mode : Arithmetic) (w n : Nat) : Outcome ε Nat :=
  if n < 2 ^ w then .ok n
  else
    match mode with
    | checked => .error .panic
    | wrapping => .ok (n % 2 ^ w)

def add {ε : Type _} (mode : Arithmetic) (w a b : Nat) : Outcome ε Nat :=
  mode.fit w (a + b)

def mul {ε : Type _} (mode : Arithmetic) (w a b : Nat) : Outcome ε Nat :=
  mode.fit w (a * b)

def sub {ε : Type _} (mode : Arithmetic) (w a b : Nat) : Outcome ε Nat :=
  if b ≤ a then .ok (a - b)
  else
    match mode with
    | checked => .error .panic
    | wrapping => .ok (a + 2 ^ w - b)

theorem add_of_lt {ε : Type _} (mode : Arithmetic) {w a b : Nat} (h : a + b < 2 ^ w) :
    (mode.add w a b : Outcome ε Nat) = .ok (a + b) :=
  if_pos h

theorem mul_of_lt {ε : Type _} (mode : Arithmetic) {w a b : Nat} (h : a * b < 2 ^ w) :
    (mode.mul w a b : Outcome ε Nat) = .ok (a * b) :=
  if_pos h

theorem sub_of_le {ε : Type _} (mode : Arithmetic) (w : Nat) {a b : Nat} (h : b ≤ a) :
    (mode.sub w a b : Outcome ε Nat) = .ok (a - b) :=
  if_pos h

/-!
## Checked and wrapping builds
-/

variable {ε α : Type _}

theorem noPanic_fit_bind {w n : Nat} {f : Nat -> Outcome ε α} :
    Outcome.NoPanic (checked.fit w n >>= f) ↔ n < 2 ^ w ∧ Outcome.NoPanic (f n) := by
  unfold fit
  split
  · next hfits => exact ⟨fun h => ⟨hfits, h⟩, fun h => h.right⟩
  · next hpast => exact ⟨fun h => absurd rfl h, fun h => absurd h.left hpast⟩

theorem noPanic_sub_bind {w a b : Nat} {f : Nat -> Outcome ε α} :
    Outcome.NoPanic (checked.sub w a b >>= f) ↔ b ≤ a ∧ Outcome.NoPanic (f (a - b)) := by
  unfold sub
  split
  · next hle => exact ⟨fun h => ⟨hle, h⟩, fun h => h.right⟩
  · next hlt => exact ⟨fun h => absurd rfl h, fun h => absurd h.left hlt⟩

/-- A wrapping build computes what a checked one does, where that one computes. -/
theorem follows_fit (w n : Nat) :
    Outcome.Follows (wrapping.fit w n : Outcome ε Nat) (checked.fit w n) := by
  intro h
  unfold fit at h ⊢
  split
  · rfl
  · next hpast =>
      rw [if_neg hpast] at h
      exact absurd rfl h

theorem follows_sub (w a b : Nat) :
    Outcome.Follows (wrapping.sub w a b : Outcome ε Nat) (checked.sub w a b) := by
  intro h
  unfold sub at h ⊢
  split
  · rfl
  · next hlt =>
      rw [if_neg hlt] at h
      exact absurd rfl h

theorem fit_checked_eq_ok {w n m : Nat} (h : (checked.fit w n : Outcome ε Nat) = .ok m) :
    m = n := by
  unfold fit at h
  split at h
  · exact (Except.ok.inj h).symm
  · cases h

end Arithmetic
end Foundation
end SpendabilityPir
