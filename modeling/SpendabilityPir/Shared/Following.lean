import SpendabilityPir.Foundation.Transition
import SpendabilityPir.Shared.Ingest

/-!
# Servers that follow a chain

A server polls lightwalletd and works on what the polls delivered, in any order.  The
runs here record the chain served last and the chain served at the last poll that had
new blocks; between polls the chain may grow and its last blocks, fewer than the tracker's
window holds, may be replaced.
-/

namespace SpendabilityPir
namespace Shared

open Foundation

/-- A server as its poll step and its work step; a stopped server takes no step. -/
structure FollowingServer (S : Type) where
  followState : S -> Option FollowState
  poll : S -> ChainView -> Option S
  work : S -> Option S

/-- A server with the chain served last and the one it ingested last. -/
structure Watched (S : Type) where
  server : S
  served : ChainView
  ingested : ChainView

inductive WatchedEvent where
  | poll (view : ChainView)
  | work

section Watching

variable {S : Type} (system : FollowingServer S) (Honest : ChainView -> Prop)

inductive WatchedStep : Watched S -> WatchedEvent -> Watched S -> Prop where
  | poll {w : Watched S} {view : ChainView} {st : FollowState} {server' : S} :
      system.followState w.server = some st -> Honest view ->
      ReplacesFewerThan st.tracker.chain.length w.served view ->
      system.poll w.server view = some server' ->
      WatchedStep w (.poll view)
        { server := server'
          served := view
          ingested := if view.tipHeight ≤ st.currentHeight then w.ingested else view }
  | work {w : Watched S} {server' : S} :
      system.work w.server = some server' ->
      WatchedStep w .work { w with server := server' }

/-- A step where every poll meets a condition on the server and the served chain. -/
def StepUnder (cond : S -> FollowState -> ChainView -> Prop) (w : Watched S)
    (event : WatchedEvent) (w' : Watched S) : Prop :=
  WatchedStep system Honest w event w' ∧
  forall view st, event = .poll view -> system.followState w.server = some st ->
    cond w.server st view

variable {system : FollowingServer S} {Honest : ChainView -> Prop}

theorem watched_invariant {cond : S -> FollowState -> ChainView -> Prop}
    {P : S -> ChainView -> ChainView -> Prop}
    (hidle : forall s served chain st view s', P s served chain ->
      system.followState s = some st -> Honest view ->
      view.tipHeight ≤ st.currentHeight -> cond s st view ->
      system.poll s view = some s' -> P s' view chain)
    (hpoll : forall s served chain st view s', P s served chain ->
      system.followState s = some st -> Honest view ->
      st.currentHeight < view.tipHeight -> cond s st view ->
      system.poll s view = some s' -> P s' view view)
    (hwork : forall s served chain s', P s served chain -> system.work s = some s' ->
      P s' served chain)
    {w w' : Watched S} {events : List WatchedEvent}
    (hrun : Run (StepUnder system Honest cond) w events w')
    (hstart : P w.server w.served w.ingested) : P w'.server w'.served w'.ingested := by
  apply hrun.invariant (P := fun v => P v.server v.served v.ingested) _ hstart
  intro s event t hs hstep
  rcases hstep with ⟨hstep, hcond⟩
  cases hstep with
  | @poll view st server' hfollow hhonest _ hpolled =>
      change P server' view
        (if view.tipHeight ≤ st.currentHeight then s.ingested else view)
      have hmet := hcond view st rfl hfollow
      by_cases hle : view.tipHeight ≤ st.currentHeight
      · rw [if_pos hle]
        exact hidle _ _ _ st view _ hs hfollow hhonest hle hmet hpolled
      · rw [if_neg hle]
        exact hpoll _ _ _ st view _ hs hfollow hhonest (Nat.lt_of_not_le hle) hmet hpolled
  | work hworked => exact hwork _ _ _ _ hs hworked

def GrowingStep (system : FollowingServer S) (Honest : ChainView -> Prop) (w : Watched S)
    (event : WatchedEvent) (w' : Watched S) : Prop :=
  WatchedStep system Honest w event w' ∧
  forall view, event = .poll view -> w.served.IsPrefix view

theorem growing_invariant {P : S -> ChainView -> ChainView -> Prop}
    (hidle : forall s served chain st view s', P s served chain ->
      system.followState s = some st -> Honest view -> served.IsPrefix view ->
      view.tipHeight ≤ st.currentHeight -> system.poll s view = some s' ->
      P s' view chain)
    (hpoll : forall s served chain st view s', P s served chain ->
      system.followState s = some st -> Honest view -> served.IsPrefix view ->
      st.currentHeight < view.tipHeight -> system.poll s view = some s' ->
      P s' view view)
    (hwork : forall s served chain s', P s served chain -> system.work s = some s' ->
      P s' served chain)
    {w w' : Watched S} {events : List WatchedEvent}
    (hrun : Run (GrowingStep system Honest) w events w')
    (hstart : P w.server w.served w.ingested) : P w'.server w'.served w'.ingested := by
  apply hrun.invariant (P := fun v => P v.server v.served v.ingested) _ hstart
  intro s event t hs hstep
  rcases hstep with ⟨hstep, hgrows⟩
  cases hstep with
  | @poll view st server' hfollow hhonest _ hpolled =>
      change P server' view
        (if view.tipHeight ≤ st.currentHeight then s.ingested else view)
      have hserved := hgrows view rfl
      by_cases hle : view.tipHeight ≤ st.currentHeight
      · rw [if_pos hle]
        exact hidle _ _ _ st view _ hs hfollow hhonest hserved hle hpolled
      · rw [if_neg hle]
        exact hpoll _ _ _ st view _ hs hfollow hhonest hserved (Nat.lt_of_not_le hle)
          hpolled
  | work hworked => exact hwork _ _ _ _ hs hworked

end Watching

/-!
## A reorganization by one block

Block 2 is replaced, and block 3 appears in the same poll.
-/

def sampleAction (nullifierByte : UInt8) : CompactOrchardAction :=
  { nullifier := List.replicate 32 nullifierByte
    cmx := List.replicate 32 0
    ephemeralKey := []
    ciphertext := [] }

def sampleGenesis : CompactBlock := sampleBlock 0 1 0 [] 0
def sampleFirst : CompactBlock := sampleBlock 1 2 1 [] 0
def sampleOrphan : CompactBlock := sampleBlock 2 3 2 [sampleAction 7] 1
def sampleReplacement : CompactBlock := sampleBlock 2 4 2 [sampleAction 8] 1
def sampleNext : CompactBlock := sampleBlock 3 5 4 [] 1

def sampleBlocks : List CompactBlock :=
  [sampleGenesis, sampleFirst, sampleOrphan, sampleReplacement, sampleNext]

def sampleUniverse : BlockUniverse :=
  BlockUniverse.ofList sampleBlocks (by decide) (by decide)

def chainBefore : ChainView := [sampleGenesis, sampleFirst]
def chainOrphaned : ChainView := [sampleGenesis, sampleFirst, sampleOrphan]
def chainAfter : ChainView := [sampleGenesis, sampleFirst, sampleReplacement, sampleNext]

theorem honest_chainBefore : HonestView sampleUniverse chainBefore := by
  have hserved : chainBefore ⊆ sampleBlocks := by decide
  exact honestView_of_list (by decide) hserved (by decide) (by decide)

theorem honest_chainOrphaned : HonestView sampleUniverse chainOrphaned := by
  have hserved : chainOrphaned ⊆ sampleBlocks := by decide
  exact honestView_of_list (by decide) hserved (by decide) (by decide)

theorem honest_chainAfter : HonestView sampleUniverse chainAfter := by
  have hserved : chainAfter ⊆ sampleBlocks := by decide
  exact honestView_of_list (by decide) hserved (by decide) (by decide)

end Shared
end SpendabilityPir
