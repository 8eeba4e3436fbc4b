import SpendabilityPir.Nullifier.EvictionTotals
import SpendabilityPir.Nullifier.SpendPublication

/-!
# When the nullifier server evicts

The server runs the eviction loop before every publication: after the sync, after a new
block, and after a reorganization.  The configured target size only ends the backfill.
-/

namespace SpendabilityPir
namespace Nullifier

open Foundation Shared

def beforeEviction (hashtable : HashTableDb) : ChainEvent -> Outcome ServerError HashTableDb
  | .newBlock height hash _ nullifiers => insertOrFail hashtable height hash nullifiers
  | .reorg orphaned newBlocks => do
      let rolledBack <- Outcome.ofPanics (rollbackOrphaned hashtable orphaned.reverse)
      insertNewBlocks rolledBack newBlocks

theorem applyEvent_eq (hashtable : HashTableDb) (event : ChainEvent) :
    applyEvent hashtable event =
      (beforeEviction hashtable event >>= fun inserted =>
        Outcome.ofPanics inserted.evictToTarget) := by
  cases event with
  | newBlock height hash prevHash nullifiers => rfl
  | reorg orphaned newBlocks =>
      rw [applyEvent, beforeEviction, bind_assoc]

theorem handleEvent_cases {σ : Type} {engine : PirEngine σ} {hashtable hashtable' : HashTableDb}
    {event : ChainEvent} {pir : PirState σ}
    (h : handleEvent engine hashtable event = .ok (hashtable', pir)) :
    exists inserted, beforeEviction hashtable event = .ok inserted ∧
      inserted.evictToTarget = some hashtable' ∧
      rebuildPir engine hashtable' scenario = .ok pir := by
  rcases handleEvent_eq_ok h with ⟨happly, hrebuild⟩
  rw [applyEvent_eq] at happly
  rcases bind_eq_ok.mp happly with ⟨inserted, hbefore, hevict⟩
  exact ⟨inserted, hbefore, Outcome.ofPanics_eq_ok.mp hevict, hrebuild⟩

theorem numNullifiers_rebuildPir {σ : Type} {engine : PirEngine σ} {hashtable : HashTableDb}
    {scenario : YpirScenario} {pir : PirState σ}
    (h : rebuildPir engine hashtable scenario = .ok pir) :
    pir.metadata.numNullifiers = hashtable.len := by
  unfold rebuildPir at h
  split at h
  · cases h
  · cases h
    rfl

def servedSize {σ : Type} (pir : Option (PirState σ)) : Set Nat :=
  {size | exists published, pir = some published ∧ published.metadata.numNullifiers = size}

theorem servedSize_rebuildPir {σ : Type} {engine : PirEngine σ} {hashtable : HashTableDb}
    {scenario : YpirScenario} {pir : PirState σ} {size : Nat}
    (h : rebuildPir engine hashtable scenario = .ok pir) (hmem : size ∈ servedSize (some pir)) :
    size = hashtable.len := by
  rcases hmem with ⟨published, heq, hsize⟩
  cases heq
  rw [← hsize]
  exact numNullifiers_rebuildPir h

namespace SpendServer

variable {σ : Type}

def Evicts (s : SpendServer σ) (input : ServerInput) (hashtable : HashTableDb) : Prop :=
  match input with
  | .publish => hashtable = s.hashtable
  | .handle =>
      exists task event rest, s.stage = .follow task (event :: rest) ∧
        beforeEviction s.hashtable event = .ok hashtable
  | _ => False

def evictions (s : SpendServer σ) : ServerInput -> List Nat
  | .publish => s.hashtable.evictedAt
  | .handle =>
      match s.stage with
      | .follow _ (event :: _) =>
          match beforeEviction s.hashtable event with
          | .error _ => []
          | .ok inserted => inserted.evictedAt
      | _ => []
  | _ => []

theorem mem_evictions {s : SpendServer σ} {input : ServerInput} {total : Nat}
    (h : total ∈ s.evictions input) :
    exists hashtable, s.Evicts input hashtable ∧ total ∈ hashtable.evictedAt := by
  cases input with
  | publish => exact ⟨s.hashtable, rfl, h⟩
  | handle =>
      unfold evictions at h
      dsimp only at h
      split at h
      · next task event rest hstage =>
          split at h
          · cases h
          · next inserted hbefore => exact ⟨inserted, ⟨task, event, rest, hstage, hbefore⟩, h⟩
      · cases h
  | connect tipHeight snapshot => cases h
  | range connection => cases h
  | poll view => cases h
  | requestFails => cases h

/-- What a step serves was served before, or is what the eviction loop leaves. -/
theorem served_step {config : ServerConfig} {engine : PirEngine σ} {s s' : SpendServer σ}
    {input : ServerInput} (h : s.step config engine input = some s') {size : Nat}
    (hmem : size ∈ servedSize s'.livePir) :
    size ∈ servedSize s.livePir ∨
      exists hashtable evicted, s.Evicts input hashtable ∧
        hashtable.evictToTarget = some evicted ∧ size = evicted.len := by
  cases hbuilds : builds input with
  | false =>
      rw [livePir_step h hbuilds] at hmem
      exact Or.inl hmem
  | true =>
      cases moves_of_step h with
      | connect _ => cases hbuilds
      | forward _ => cases hbuilds
      | backfill _ => cases hbuilds
      | poll _ => cases hbuilds
      | requestFails _ => cases hbuilds
      | publish _ =>
          unfold publish at hmem
          split at hmem
          · exact Or.inl hmem
          · next evicted hevict =>
              split at hmem
              · exact Or.inl hmem
              · next pir hrebuild =>
                  exact Or.inr ⟨s.hashtable, evicted, rfl, hevict,
                    servedSize_rebuildPir hrebuild hmem⟩
      | @handle task event rest hstage =>
          unfold handle at hmem
          split at hmem
          · exact Or.inl hmem
          · next evicted pir hhandle =>
              rcases handleEvent_cases hhandle with ⟨inserted, hbefore, hevict, hrebuild⟩
              exact Or.inr ⟨inserted, evicted, ⟨task, event, rest, hstage, hbefore⟩, hevict,
                servedSize_rebuildPir hrebuild hmem⟩

/-- Where a step runs the eviction loop, `limit` and the target size are reached at
once. -/
def Within (limit : Nat) (s : SpendServer σ) (input : ServerInput) : Prop :=
  forall hashtable, s.Evicts input hashtable -> hashtable.EvictsWithin limit

theorem served_within {config : ServerConfig} {engine : PirEngine σ} {limit : Nat}
    {s s' : SpendServer σ} {input : ServerInput}
    (h : s.step config engine input = some s') (hwithin : s.Within limit input) {size : Nat}
    (hmem : size ∈ servedSize s'.livePir) : size ∈ servedSize s.livePir ∨ size ≤ limit := by
  rcases served_step h hmem with hold | ⟨hashtable, evicted, hevicts, hevict, heq⟩
  · exact Or.inl hold
  · rw [heq]
    exact Or.inr ((HashTableDb.trimsTo_iff hevict).mp (hwithin hashtable hevicts).trims)

theorem evictions_within {limit : Nat} {s : SpendServer σ} {input : ServerInput}
    (hwithin : s.Within limit input) {total : Nat} (hmem : total ∈ s.evictions input) :
    limit < total := by
  rcases mem_evictions hmem with ⟨hashtable, hevicts, hevicted⟩
  exact (hwithin hashtable hevicts).onlyAbove.evictedAt hevicted

end SpendServer

def spendEvictor {σ : Type} (config : ServerConfig) (engine : PirEngine σ) :
    Evictor (SpendServer σ) ServerInput where
  Step s input s' := s.step config engine input = some s'
  evictions := SpendServer.evictions
  served s := servedSize s.livePir
  Within := SpendServer.Within
  served_step _ _ _ _ h hwithin _ hmem := SpendServer.served_within h hwithin hmem
  evictions_step _ _ _ _ _ hwithin _ hmem := SpendServer.evictions_within hwithin hmem

end Nullifier
end SpendabilityPir
