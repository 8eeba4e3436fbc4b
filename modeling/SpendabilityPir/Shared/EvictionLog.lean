import Mathlib.Data.Set.Insert
import SpendabilityPir.Foundation.Transition

/-!
# Evictions and a size limit

A server publishes the contents of a table and evicts blocks from it.  A run logs the
total at each eviction, and a limit is honoured when nothing larger is published and
nothing is evicted at or below it.
-/

namespace SpendabilityPir
namespace Shared

open Foundation

/-- A server with the totals at which a step evicts blocks, the sizes of the tables it
serves, and what a step has to meet to stay within a limit. -/
structure Evictor (S I : Type) where
  Step : S -> I -> S -> Prop
  evictions : S -> I -> List Nat
  served : S -> Set Nat
  Within : Nat -> S -> I -> Prop
  served_step : forall limit s i s', Step s i s' -> Within limit s i ->
    forall size, size ∈ served s' -> size ∈ served s ∨ size ≤ limit
  evictions_step : forall limit s i s', Step s i s' -> Within limit s i ->
    forall total, total ∈ evictions s i -> limit < total

/-- A server and the totals at which it evicted blocks so far. -/
structure Logged (S : Type) where
  server : S
  evictedAt : List Nat

namespace Evictor

variable {S I : Type}

structure LoggedStep (E : Evictor S I) (o : Logged S) (input : I) (o' : Logged S) : Prop where
  step : E.Step o.server input o'.server
  evictedAt : o'.evictedAt = o.evictedAt ++ E.evictions o.server input

def next (E : Evictor S I) (o : Logged S) (input : I) (s : S) : Logged S :=
  { server := s, evictedAt := o.evictedAt ++ E.evictions o.server input }

theorem loggedStep_next {E : Evictor S I} {o : Logged S} {input : I} {s : S}
    (h : E.Step o.server input s) : E.LoggedStep o input (E.next o input s) :=
  ⟨h, rfl⟩

def startOf (s : S) : Logged S :=
  { server := s, evictedAt := [] }

/-- The tables that are served hold at most `limit` nullifiers, and blocks were evicted
only above it. -/
def Honours (E : Evictor S I) (limit : Nat) (o : Logged S) : Prop :=
  (forall size, size ∈ E.served o.server -> size ≤ limit) ∧
    forall total, total ∈ o.evictedAt -> limit < total

/-- A run in which every step stays within a limit. -/
def WithinRun (E : Evictor S I) (limit : Nat) (s : S) (inputs : List I) (o : Logged S) :
    Prop :=
  Run (fun o input o' => E.LoggedStep o input o' ∧ E.Within limit o.server input)
    (startOf s) inputs o

theorem withinRun_next {E : Evictor S I} {limit : Nat} {s s' : S} {o : Logged S}
    {inputs : List I} (hrun : E.WithinRun limit s inputs o) (input : I)
    (hstep : E.Step o.server input s') (hwithin : E.Within limit o.server input) :
    E.WithinRun limit s (inputs ++ [input]) (E.next o input s') :=
  Run.snoc hrun ⟨loggedStep_next hstep, hwithin⟩

theorem honours_step {E : Evictor S I} {limit : Nat} {o o' : Logged S} {input : I}
    (h : E.LoggedStep o input o') (hwithin : E.Within limit o.server input)
    (hold : E.Honours limit o) : E.Honours limit o' := by
  constructor
  · intro size hserved
    rcases E.served_step limit _ _ _ h.step hwithin size hserved with hkept | hnew
    · exact hold.1 size hkept
    · exact hnew
  · intro total hlogged
    rw [h.evictedAt] at hlogged
    rcases List.mem_append.mp hlogged with hbefore | hnow
    · exact hold.2 total hbefore
    · exact E.evictions_step limit _ _ _ h.step hwithin total hnow

theorem honours_run {E : Evictor S I} {limit : Nat} {s : S} {inputs : List I} {o : Logged S}
    (hrun : E.WithinRun limit s inputs o) (hempty : E.served s = ∅) : E.Honours limit o := by
  apply Run.invariant (P := fun o => E.Honours limit o) _ hrun
  · constructor
    · intro size hserved
      change size ∈ E.served s at hserved
      rw [hempty] at hserved
      cases hserved
    · intro total hfalse
      cases hfalse
  · intro o input o' hold hstep
    exact honours_step hstep.1 hstep.2 hold

end Evictor
end Shared
end SpendabilityPir
