import Mathlib.Data.Set.Insert
import SpendabilityPir.Foundation.Transition
import SpendabilityPir.Shared.Ingest
import SpendabilityPir.Shared.PirTypes

/-!
# Published states and the tip

A server records and publishes heights of blocks it was given: those of a snapshot and
those lightwalletd served.  A run observes what was given so far, and the tip when the
published states were built.
-/

namespace SpendabilityPir
namespace Shared

open Foundation

def blockHeights (blocks : List CompactBlock) : Set Nat :=
  {height | exists block, block ∈ blocks ∧ block.height.toNat = height}

/-- The heights of the blocks a sync of a range is served. -/
def fetchedHeights (connection : Option Connection) (fromHeight toHeight : Nat) : Set Nat :=
  match connection with
  | none => ∅
  | some connection => blockHeights (fetchBatches connection fromHeight toHeight)

/-- A server with the heights each step is given, and those it records and publishes.
Nothing is recorded that was not given, except for the height 0 of an empty database. -/
structure Publisher (S I : Type) where
  Step : S -> I -> S -> Prop
  builds : S -> I -> Bool
  given : S -> I -> Set Nat
  heights : S -> Set Nat
  published : S -> Set Nat
  step_heights : forall s i s', Step s i s' ->
    heights s' ⊆ insert 0 (heights s ∪ given s i)
  published_heights : forall s, published s ⊆ heights s
  published_kept : forall s i s', Step s i s' -> builds s i = false ->
    published s' ⊆ published s

/-- A server, the heights given to it so far, and the tip at the last build. -/
structure Observed (S : Type) where
  server : S
  given : Set Nat
  builtAt : Nat

namespace Publisher

variable {S I : Type}

structure ObservedStep (P : Publisher S I) (o : Observed S) (label : I × Nat)
    (o' : Observed S) : Prop where
  step : P.Step o.server label.1 o'.server
  given : o'.given = o.given ∪ P.given o.server label.1
  builtAt : o'.builtAt = if P.builds o.server label.1 then label.2 else o.builtAt

def next (P : Publisher S I) (o : Observed S) (label : I × Nat) (s : S) : Observed S :=
  { server := s
    given := o.given ∪ P.given o.server label.1
    builtAt := if P.builds o.server label.1 then label.2 else o.builtAt }

theorem observedStep_next {P : Publisher S I} {o : Observed S} {label : I × Nat} {s : S}
    (h : P.Step o.server label.1 s) : P.ObservedStep o label (P.next o label s) :=
  ⟨h, rfl, rfl⟩

/-- Whenever a state is built, every block given so far is at least the confirmation
depth behind the tip. -/
def GivenBehindTip (P : Publisher S I) (o : Observed S) (label : I × Nat) : Prop :=
  P.builds o.server label.1 = true -> confirmationDepth ≤ label.2 ∧
    forall height, height ∈ o.given ∪ P.given o.server label.1 ->
      height + confirmationDepth ≤ label.2

/-- The published heights are at least the confirmation depth behind the tip they were
built under. -/
def PublishedBehindTip (P : Publisher S I) (o : Observed S) : Prop :=
  forall height, height ∈ P.published o.server -> height + confirmationDepth ≤ o.builtAt

def startOf (s : S) : Observed S :=
  { server := s, given := ∅, builtAt := 0 }

/-- A run in which what is given stays behind the tip. -/
def DelayedRun (P : Publisher S I) (s : S) (labels : List (I × Nat)) (o : Observed S) :
    Prop :=
  Run (fun o label o' => P.ObservedStep o label o' ∧ P.GivenBehindTip o label)
    (startOf s) labels o

theorem heights_step {P : Publisher S I} {o o' : Observed S} {label : I × Nat}
    (h : P.ObservedStep o label o') (hheights : P.heights o.server ⊆ insert 0 o.given) :
    P.heights o'.server ⊆ insert 0 o'.given := by
  intro height hmem
  rw [h.given]
  rcases P.step_heights _ _ _ h.step hmem with hzero | hold | hnew
  · exact Or.inl hzero
  · rcases hheights hold with hzero | hgiven
    · exact Or.inl hzero
    · exact Or.inr (Or.inl hgiven)
  · exact Or.inr (Or.inr hnew)

theorem publishedBehindTip_step {P : Publisher S I} {o o' : Observed S} {label : I × Nat}
    (h : P.ObservedStep o label o') (hbehind : P.GivenBehindTip o label)
    (hheights : P.heights o.server ⊆ insert 0 o.given) (hold : P.PublishedBehindTip o) :
    P.PublishedBehindTip o' := by
  intro height hmem
  rw [h.builtAt]
  cases hbuilds : P.builds o.server label.1 with
  | false => exact hold height (P.published_kept _ _ _ h.step hbuilds hmem)
  | true =>
      rcases hbehind hbuilds with ⟨hdepth, hgiven⟩
      have hrecorded := heights_step h hheights (P.published_heights _ hmem)
      rw [h.given] at hrecorded
      rcases hrecorded with hzero | hrecorded
      · rw [hzero, Nat.zero_add]
        exact hdepth
      · exact hgiven height hrecorded

theorem delayedRun_next {P : Publisher S I} {s s' : S} {o : Observed S}
    {labels : List (I × Nat)} (hrun : P.DelayedRun s labels o) (input : I) (tip : Nat)
    (hstep : P.Step o.server input s') (hbehind : P.GivenBehindTip o (input, tip)) :
    P.DelayedRun s (labels ++ [(input, tip)]) (P.next o (input, tip) s') :=
  Run.snoc hrun ⟨observedStep_next hstep, hbehind⟩

theorem givenBehindTip_of_not_builds {P : Publisher S I} {o : Observed S} {label : I × Nat}
    (h : P.builds o.server label.1 = false) : P.GivenBehindTip o label := by
  intro hbuilds
  rw [h] at hbuilds
  cases hbuilds

theorem publishedBehindTip_run {P : Publisher S I} {s : S} {o : Observed S}
    {labels : List (I × Nat)} (hrun : P.DelayedRun s labels o)
    (hempty : P.heights s = ∅) : P.PublishedBehindTip o := by
  have hinv := Run.invariant (P := fun o => P.heights o.server ⊆ insert 0 o.given ∧
      P.PublishedBehindTip o) (fun o label o' hkept hstep =>
    ⟨heights_step hstep.1 hkept.1, publishedBehindTip_step hstep.1 hstep.2 hkept.1 hkept.2⟩)
    hrun
  apply (hinv ⟨_, _⟩).2
  · change P.heights s ⊆ _
    rw [hempty]
    exact Set.empty_subset _
  · intro height hmem
    have hnone := P.published_heights s hmem
    rw [hempty] at hnone
    cases hnone

end Publisher
end Shared
end SpendabilityPir
